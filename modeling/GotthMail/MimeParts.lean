/-
The scanner for raw MIME parts against the joining of parts: every part comes
back as it was written, unless a line of an earlier part begins like the last
delimiter, which the scanner does not forget.
-/
import GotthMail.ExactSender
import Mathlib.Data.PFun

namespace GotthMail

open Bytes Wire MimeText

variable {body marker before : Text}

/-- The parts of a multipart, each with the delimiter line after it. -/
def joinParts (marker : Text) : List Text → Text
  | [] => []
  | [part] => part ++ 13 :: 10 :: (marker ++ (ascii "--" ++ lineEnd))
  | part :: rest => part ++ 13 :: 10 :: (marker ++ (lineEnd ++ joinParts marker rest))

def joinedParts (boundary : Text) (parts : List Text) : Text :=
  ascii "--" ++ boundary ++ lineEnd ++ joinParts (ascii "--" ++ boundary) parts

/-- What comes next in a part is the start of a line. -/
def Begins (before : Text) : Prop := before = [] ∨ lineEnd <:+ before

def HasDelimiter (marker part : Text) : Prop :=
  ∃ before closing blanks after, Begins before ∧
    (closing = [] ∨ closing = ascii "--") ∧ (∀ byte ∈ blanks, isBlank byte = true) ∧
    (after = [] ∨ lineEnd <+: after) ∧ part = before ++ (marker ++ (closing ++ blanks ++ after))

/-- A line of the part begins like the last delimiter. -/
def Closes (marker part : Text) : Prop :=
  ∃ before after, Begins before ∧ part = before ++ (marker ++ (ascii "--" ++ after))

/-- The texts stand in another one in this order and do not overlap. -/
inductive InOrder : List Text → Text → Prop where
  | nil (body : Text) : InOrder [] body
  | cons {part : Text} {parts : List Text} (gap : Text) {rest : Text}
      (hrest : InOrder parts rest) : InOrder (part :: parts) (gap ++ (part ++ rest))

/-- One round of the splitting with the parts that the source's loop has collected. -/
def collectRound (body marker : Text) :
    Nat × List Text → Except Error (List Text) ⊕ Nat × List Text
  | (partStart, parts) =>
    match splitRound body marker partStart with
    | .error reason => .inl (.error reason)
    | .ok (part, none) => .inl (.ok (parts ++ [part]))
    | .ok (part, some stop) => .inr (stop, parts ++ [part])

section Rounds

variable (hmarker : marker ≠ [])

theorem boundaryRound_later {searchFrom next : Nat} {final flag : Bool}
    (hround : boundaryRound body marker (searchFrom, final) = .inr (next, flag)) :
    searchFrom < next := by
  rw [boundaryRound] at hround
  cases hoffset : indexOf marker (body.drop searchFrom) with
  | none =>
    rw [hoffset] at hround
    cases hround
  | some offset =>
    rw [hoffset] at hround
    dsimp only at hround
    split_ifs at hround <;> cases hround <;> omega

include hmarker

theorem boundaryRound_beyond {searchFrom : Nat} (hfrom : body.length < searchFrom)
    (final : Bool) : boundaryRound body marker (searchFrom, final) = .inl none := by
  rw [boundaryRound, List.drop_eq_nil_of_le hfrom.le, indexOf, if_neg hmarker]

/-- With fuel that covers the rest of the text the answer is the one of the loop
without a bound: every round that goes on starts later in the text. -/
theorem nextRawBoundary_ends {fuel searchFrom : Nat} (hfuel : body.length < fuel + searchFrom)
    (final : Bool) : nextRawBoundary body marker fuel searchFrom final ∈
      PFun.fix (PFun.lift (boundaryRound body marker)) (searchFrom, final) := by
  induction fuel generalizing searchFrom final with
  | zero =>
    refine PFun.fix_stop (Part.mem_some_iff.mpr ?_)
    rw [boundaryRound_beyond hmarker (by omega), nextRawBoundary]
  | succ fuel ih =>
    rw [nextRawBoundary]
    cases hround : boundaryRound body marker (searchFrom, final) with
    | inl answer => exact PFun.fix_stop (Part.mem_some_iff.mpr hround.symm)
    | inr state =>
      have hlater := boundaryRound_later hround
      exact PFun.mem_fix_iff.mpr
        (.inr ⟨state, Part.mem_some_iff.mpr hround.symm, ih (by omega) state.2⟩)

theorem nextRawBoundary_fuel {fuel other searchFrom : Nat} (hfuel : body.length < fuel + searchFrom)
    (hother : body.length < other + searchFrom) (final : Bool) :
    nextRawBoundary body marker fuel searchFrom final =
      nextRawBoundary body marker other searchFrom final :=
  Part.mem_unique (nextRawBoundary_ends hmarker hfuel final)
    (nextRawBoundary_ends hmarker hother final)

theorem splitRound_beyond {partStart : Nat} (hfrom : body.length < partStart) :
    splitRound body marker partStart = .error (.text "unterminated MIME multipart") := by
  rw [splitRound, nextRawBoundary, boundaryRound_beyond hmarker hfrom]
  rfl

/-- The same for the splitting: every part ends after the place where it starts. -/
theorem splitFrom_ends {fuel partStart : Nat} (hfuel : body.length < fuel + partStart)
    (parts : List Text) : (parts ++ ·) <$> splitFrom body marker fuel partStart ∈
      PFun.fix (PFun.lift (collectRound body marker)) (partStart, parts) := by
  induction fuel generalizing partStart parts with
  | zero =>
    refine PFun.fix_stop (Part.mem_some_iff.mpr ?_)
    rw [collectRound, splitRound_beyond hmarker (by omega), splitFrom]
    rfl
  | succ fuel ih =>
    rw [splitFrom]
    cases hround : splitRound body marker partStart with
    | error reason =>
      refine PFun.fix_stop (Part.mem_some_iff.mpr ?_)
      rw [collectRound, hround]
      rfl
    | ok found =>
      obtain ⟨part, _ | stop⟩ := found
      · refine PFun.fix_stop (Part.mem_some_iff.mpr ?_)
        rw [collectRound, hround]
        rfl
      · obtain ⟨start, hnext, hstart, -⟩ := splitRound_inner hround
        obtain ⟨-, ⟨_, _, _, _, _, hstop⟩, -⟩ := nextRawBoundary_inner hnext
        refine PFun.mem_fix_iff.mpr (.inr ⟨(stop, parts ++ [part]), Part.mem_some_iff.mpr ?_, ?_⟩)
        · rw [collectRound, hround]
        · have hlater := ih (show body.length < fuel + stop by omega) (parts ++ [part])
          simp only [List.append_assoc, List.singleton_append] at hlater
          change (parts ++ ·) <$> (splitFrom body marker fuel stop >>=
            fun rest => pure (part :: rest)) ∈ _
          cases hrest : splitFrom body marker fuel stop <;> rw [hrest] at hlater <;> exact hlater

end Rounds

instance (body : Text) (start : Nat) : Decidable (LineStart body start) :=
  inferInstanceAs (Decidable (_ ∨ _))

/-- The scanner from one position on, with the fuel of the source's loop. -/
def scan (body marker : Text) (searchFrom : Nat) (final : Bool) : Option (Nat × Nat × Bool) :=
  nextRawBoundary body marker (body.length + 1) searchFrom final

section Scan

variable (hmarker : marker ≠ []) {searchFrom : Nat} (final : Bool)

include hmarker

/-- The scanner at a position where the marker stands. -/
theorem scan_marker (hhere : marker <+: body.drop searchFrom) :
    scan body marker searchFrom final =
      if LineStart body searchFrom then
        let follows := afterMarker body (searchFrom + marker.length)
        if follows.2 = body.length then
          if final || follows.1 then some (searchFrom, follows.2, true) else none
        else if (body.drop follows.2).take 2 = lineEnd then
          some (searchFrom, follows.2 + 2, final || follows.1)
        else scan body marker (searchFrom + 1) (final || follows.1)
      else scan body marker (searchFrom + 1) final := by
  have hindex : indexOf marker (body.drop searchFrom) = some 0 := by
    cases hrest : body.drop searchFrom with
    | nil => exact absurd (List.prefix_nil.mp (hrest ▸ hhere)) hmarker
    | cons byte rest =>
      rw [indexOf, if_pos (List.isPrefixOf_iff_prefix.mpr (hrest ▸ hhere))]
  have hnext (flag : Bool) : nextRawBoundary body marker body.length
      (searchFrom + 1) flag = scan body marker (searchFrom + 1) flag :=
    nextRawBoundary_fuel hmarker (by omega) (by omega) flag
  rw [scan, nextRawBoundary, boundaryRound, hindex]
  simp only [Nat.add_zero]
  by_cases hline : LineStart body searchFrom
  · rw [if_neg (lineStart_iff.mp hline), if_pos hline]
    split_ifs <;> first | rfl | exact hnext _
  · rw [if_pos (by rwa [lineStart_iff, not_not] at hline), if_neg hline]
    exact hnext final

theorem scan_skip (hfrom : searchFrom < body.length)
    (hhere : ¬(marker <+: body.drop searchFrom ∧ LineStart body searchFrom)) :
    scan body marker searchFrom final = scan body marker (searchFrom + 1) final := by
  by_cases hfound : marker <+: body.drop searchFrom
  · rw [scan_marker hmarker final hfound, if_neg fun hline => hhere ⟨hfound, hline⟩]
  · have hindex : indexOf marker (body.drop searchFrom) =
        (indexOf marker (body.drop (searchFrom + 1))).map (· + 1) := by
      rw [List.drop_eq_getElem_cons hfrom] at hfound ⊢
      rw [indexOf, if_neg fun hword => hfound (List.isPrefixOf_iff_prefix.mp hword)]
    rw [scan, scan, nextRawBoundary, nextRawBoundary, boundaryRound, boundaryRound, hindex]
    cases hoffset : indexOf marker (body.drop (searchFrom + 1)) with
    | none => rfl
    | some offset =>
      simp only [Option.map_some, show searchFrom + (offset + 1) = searchFrom + 1 + offset by omega]

end Scan

theorem lineStart_append (text rest : Text) :
    LineStart (text ++ rest) text.length ↔ Begins text := by
  rw [LineStart, Begins, slice, List.take_left, List.length_eq_zero_iff, List.suffix_iff_eq_drop]
  refine or_congr_right ⟨fun hline => hline.2.symm, fun hline => ⟨?_, hline.symm⟩⟩
  have hlength := congrArg List.length hline
  simp only [List.length_drop, lineEnd, List.length_cons, List.length_nil] at hlength
  omega

variable {parts : List Text}

/-- A line starts in a part as it does in the text before it and the part. -/
theorem begins_append (hbefore : lineEnd <:+ before) (seen : Text) :
    Begins (before ++ seen) ↔ Begins seen := by
  obtain ⟨start, rfl⟩ := hbefore
  constructor
  · rintro (hnil | hline)
    · exact absurd hnil (by simp [lineEnd])
    · rcases Nat.lt_or_ge seen.length 2 with hshort | hlong
      · rcases Nat.le_one_iff_eq_zero_or_eq_one.mp (Nat.le_of_lt_succ hshort) with hnil | hone
        · exact .inl (List.length_eq_zero_iff.mp hnil)
        · obtain ⟨byte, rfl⟩ := List.length_eq_one_iff.mp hone
          have hsame := List.suffix_iff_eq_drop.mp hline
          simp [lineEnd, List.drop_append, List.drop_eq_nil_of_le] at hsame
      · exact .inr (List.suffix_of_suffix_length_le hline (List.suffix_append _ _) hlong)
  · rintro (rfl | hline)
    · exact .inr (by simp)
    · exact .inr (hline.trans (List.suffix_append _ _))

section Parts

variable {tail : Text} (hmarker : marker ≠ []) (hreturn : 13 ∉ marker) (hfeed : 10 ∉ marker)
  (hbefore : lineEnd <:+ before)

variable {more : Text}

/-- A marker in a part that does not make a delimiter line is passed over. -/
theorem scan_candidate (hmarker : marker ≠ []) (hbefore : lineEnd <:+ before)
    {seen : Text} (hbegins : Begins seen) (hclean : ¬HasDelimiter marker (seen ++ (marker ++ more)))
    (hbody : body = before ++ seen ++ (marker ++ more ++ 13 :: 10 :: tail)) :
    ∃ closing : Bool, (closing = true ↔ ascii "--" <+: more) ∧ ∀ final,
      scan body marker (before ++ seen).length final =
        scan body marker ((before ++ seen).length + 1) (final || closing) := by
  have hdrop : body.drop (before ++ seen).length = marker ++ (more ++ 13 :: 10 :: tail) := by
    rw [hbody, List.drop_left, List.append_assoc]
  have hline : LineStart body (before ++ seen).length := by
    rw [hbody, lineStart_append, begins_append hbefore]
    exact hbegins
  cases hafter : afterMarker body ((before ++ seen).length + marker.length) with
  | mk closing after =>
    obtain ⟨hclosing, blanks, hblanks, hrest, _⟩ := afterMarker_spec hafter
    rw [drop_append_of_drop hdrop] at hclosing hrest
    have hdashes : 13 ∉ (if closing then ascii "--" else []) ++ blanks := by
      intro hmem
      rcases List.mem_append.mp hmem with hmem | hmem
      · cases closing <;> exact absurd hmem (by decide)
      · exact absurd (hblanks 13 hmem) (by decide)
    obtain ⟨after', hmore⟩ := prefix_of_append hdashes ⟨_, hrest.symm⟩
    have hfollows : body.drop after = after' ++ 13 :: 10 :: tail := by
      rw [← hmore, List.append_assoc _ after'] at hrest
      exact (List.append_cancel_left hrest).symm
    have hopen : (body.drop after).take 2 ≠ lineEnd := by
      intro hend
      refine hclean ⟨seen, if closing then ascii "--" else [], blanks, after', hbegins,
        ?_, hblanks, ?_, by rw [← hmore]⟩
      · cases closing with
        | false => exact .inl rfl
        | true => exact .inr rfl
      · rw [hfollows] at hend
        match after', hend with
        | [], _ => exact .inl rfl
        | [_], hend => simp [lineEnd] at hend
        | first :: second :: others, hend =>
          exact .inr ⟨others, by rw [← hend]; rfl⟩
    have hlast : after ≠ body.length := by
      intro hend
      rw [hend, List.drop_length] at hfollows
      simp at hfollows
    refine ⟨closing, ?_, fun final => ?_⟩
    · rw [hclosing]
      constructor
      · exact prefix_of_append (by decide)
      · exact fun hfound => hfound.trans (List.prefix_append _ _)
    · rw [scan_marker hmarker final ⟨_, hdrop.symm⟩, if_pos hline, hafter]
      simp only [hlast, hopen, if_false]

include hmarker hreturn hbefore

/-- The scanner passes over the rest of a part, and remembers whether a line
begins like the last delimiter. -/
theorem scan_part {seen rest : Text} (hclean : ¬HasDelimiter marker (seen ++ rest))
    (hbody : body = before ++ seen ++ (rest ++ 13 :: 10 :: tail)) :
    ∃ flag : Bool, (flag = true ↔ ∃ more after, Begins (seen ++ more) ∧
        rest = more ++ (marker ++ (ascii "--" ++ after))) ∧
      ∀ final, scan body marker (before ++ seen).length final =
        scan body marker (before ++ seen ++ rest).length (final || flag) := by
  induction rest generalizing seen with
  | nil =>
    refine ⟨false, ⟨nofun, ?_⟩, fun final => by simp⟩
    rintro ⟨more, after, _, hnil⟩
    obtain ⟨_, hnil⟩ := List.append_eq_nil_iff.mp hnil.symm
    exact absurd (List.append_eq_nil_iff.mp hnil).1 hmarker
  | cons byte rest ih =>
    obtain ⟨flag, hflag, hscan⟩ := @ih (seen ++ [byte]) (by simpa using hclean)
      (by simpa using hbody)
    have hnext : (before ++ (seen ++ [byte])).length = (before ++ seen).length + 1 := by
      simp only [List.length_append, List.length_singleton]
      omega
    have hend : (before ++ (seen ++ [byte]) ++ rest).length =
        (before ++ seen ++ byte :: rest).length :=
      congrArg List.length (by simp)
    rw [hnext, hend] at hscan
    have hdrop : body.drop (before ++ seen).length = byte :: rest ++ 13 :: 10 :: tail := by
      rw [hbody, List.drop_left]
    -- a later line that begins like the last delimiter
    have hlater : (∃ more after, Begins (seen ++ byte :: more) ∧
        byte :: rest = byte :: more ++ (marker ++ (ascii "--" ++ after))) ↔
          flag = true := by
      rw [hflag]
      simp
    by_cases hhere : marker <+: byte :: rest ∧ Begins seen
    · obtain ⟨⟨more, hmore⟩, hbegins⟩ := hhere
      rw [← hmore] at hbody hclean
      obtain ⟨closing, hclosing, hpass⟩ := scan_candidate hmarker hbefore hbegins hclean hbody
      refine ⟨closing || flag, ?_, fun final => by rw [hpass, hscan, Bool.or_assoc]⟩
      rw [Bool.or_eq_true, hclosing, ← hlater]
      constructor
      · rintro (⟨after, hafter⟩ | ⟨others, after, hstart, hrest⟩)
        · exact ⟨[], after, by simpa using hbegins, by rw [← hmore, ← hafter]; rfl⟩
        · exact ⟨byte :: others, after, hstart, hrest⟩
      · rintro ⟨others, after, hstart, hrest⟩
        cases others with
        | nil =>
          rw [← hmore, List.nil_append] at hrest
          exact .inl ⟨after, (List.append_cancel_left hrest).symm⟩
        | cons first others =>
          obtain ⟨rfl, _⟩ := List.cons.inj hrest
          exact .inr ⟨others, after, hstart, hrest⟩
    · refine ⟨flag, ?_, fun final => ?_⟩
      · rw [← hlater]
        constructor
        · rintro ⟨others, after, hstart, hrest⟩
          exact ⟨byte :: others, after, hstart, hrest⟩
        · rintro ⟨others, after, hstart, hrest⟩
          cases others with
          | nil =>
            rw [List.append_nil] at hstart
            exact absurd ⟨⟨_, hrest.symm⟩, hstart⟩ hhere
          | cons first others =>
            obtain ⟨rfl, _⟩ := List.cons.inj hrest
            exact ⟨others, after, hstart, hrest⟩
      · rw [scan_skip hmarker final (by rw [hbody]; simp) ?_, hscan]
        rw [hdrop, hbody, lineStart_append, begins_append hbefore]
        exact fun hfound => hhere ⟨prefix_of_append hreturn hfound.1, hfound.2⟩

omit hreturn hbefore in
/-- A delimiter line is found where it starts. -/
theorem scan_here {closing : Text} (hbegins : Begins before)
    (hclosing : closing = [] ∨ closing = ascii "--")
    (hbody : body = before ++ (marker ++ (closing ++ 13 :: 10 :: more))) (final : Bool) :
    scan body marker before.length final = some (before.length,
      (before ++ (marker ++ (closing ++ lineEnd))).length,
      final || decide (closing = ascii "--")) := by
  have hdrop : body.drop before.length = marker ++ (closing ++ ([] ++ 13 :: 10 :: more)) := by
    rw [hbody, List.drop_left]
    rfl
  have hstart : LineStart body before.length := by
    rwa [hbody, lineStart_append]
  have hafter := afterMarker_eq hclosing (by simp) (.inr rfl) (drop_append_of_drop hdrop)
  have hfollows := drop_append_of_drop (drop_append_of_drop hdrop)
  rw [scan_marker hmarker final ⟨_, hdrop.symm⟩, if_pos hstart, hafter]
  simp only [List.length_nil, Nat.add_zero]
  rw [if_neg, if_pos]
  · simp only [List.length_append, lineEnd, List.length_cons, List.length_nil, Nat.add_assoc]
  · rw [hfollows]
    rfl
  · intro hend
    rw [hend, List.drop_length] at hfollows
    cases hfollows

include hfeed

/-- The delimiter line after a part is found. -/
theorem scan_delimiter {part closing : Text} (hclean : ¬HasDelimiter marker part)
    (hclosing : closing = [] ∨ closing = ascii "--")
    (hbody : body = before ++ (part ++ 13 :: 10 :: (marker ++ (closing ++ 13 :: 10 :: more)))) :
    ∃ flag : Bool, (flag = true ↔ Closes marker part) ∧
      scan body marker before.length false = some ((before ++ part ++ lineEnd).length,
        (before ++ part ++ lineEnd ++ (marker ++ (closing ++ lineEnd))).length,
        flag || decide (closing = ascii "--")) := by
  have hpart : body = before ++ [] ++ (part ++ 13 :: 10 ::
      (marker ++ (closing ++ 13 :: 10 :: more))) := by rw [hbody, List.append_nil]
  obtain ⟨flag, hflag, hscan⟩ := scan_part hmarker hreturn hbefore
    (show ¬HasDelimiter marker ([] ++ part) from hclean) hpart
  rw [List.append_nil] at hscan
  refine ⟨flag, hflag, ?_⟩
  have hskip (byte : UInt8) (text rest : Text) (hbyte : byte ∉ marker)
      (htext : body = text ++ byte :: rest) (final : Bool) :
      scan body marker text.length final = scan body marker (text ++ [byte]).length final := by
    rw [scan_skip hmarker final (by rw [htext]; simp), List.length_append]
    · rfl
    · rw [htext, List.drop_left]
      exact fun hfound => hmarker (List.prefix_nil.mp
        (prefix_of_append hbyte (show marker <+: [] ++ byte :: rest from hfound.1)))
  have hline : before ++ part ++ [13] ++ [10] = before ++ part ++ lineEnd := by
    rw [List.append_assoc _ [13]]
    rfl
  have htext : body = before ++ part ++ lineEnd ++ (marker ++ (closing ++ 13 :: 10 :: more)) := by
    rw [hbody]
    simp [lineEnd]
  rw [hscan, hskip 13 (before ++ part) _ hreturn (by rw [hbody, List.append_assoc]),
    hskip 10 (before ++ part ++ [13]) (marker ++ (closing ++ 13 :: 10 :: more)) hfeed
      (by rw [hbody]; simp), hline,
    scan_here hmarker (.inr (List.suffix_append _ _)) hclosing htext, Bool.false_or]

end Parts

theorem length_joinParts (marker : Text) (parts : List Text) :
    parts.length ≤ (joinParts marker parts).length := by
  induction parts with
  | nil => exact Nat.zero_le _
  | cons part rest ih =>
    cases rest with
    | nil =>
      simp only [joinParts, List.length_append, List.length_cons, List.length_nil]
      omega
    | cons next others =>
      rw [joinParts]
      · simp only [List.length_append, List.length_cons] at ih ⊢
        omega
      · exact nofun

theorem slice_append (before part after : Text) :
    slice (before ++ part ++ after) before.length (before ++ part).length = part := by
  rw [slice, List.take_left, List.drop_left]

/-- One round of the splitting, once the next delimiter is known. -/
theorem splitFrom_found {body part after : Text} {stop : Nat} {final : Bool}
    (hbody : body = before ++ part ++ (lineEnd ++ after))
    (hscan : scan body marker before.length false =
      some ((before ++ part ++ lineEnd).length, stop, final)) (fuel : Nat) :
    splitFrom body marker (fuel + 1) before.length =
      if final then .ok [part] else (part :: ·) <$> splitFrom body marker fuel stop := by
  have hlong : (before ++ part ++ lineEnd).length = (before ++ part).length + 2 :=
    List.length_append
  have hsep : slice body (before ++ part).length ((before ++ part).length + 2) =
      lineEnd := by
    rw [← hlong, hbody, ← List.append_assoc]
    exact slice_append _ _ _
  have hpart : slice body before.length (before ++ part).length = part := by
    rw [hbody]
    exact slice_append _ _ _
  have hcheck : check (decide (before.length + 2 ≤ (before ++ part).length + 2) &&
      lineEnd == lineEnd) "invalid MIME boundary separation" = .ok () := by
    simp
  rw [hlong] at hscan
  rw [splitFrom, splitRound,
    show nextRawBoundary body marker (body.length + 1) before.length false = _ from hscan]
  simp only [require, bind, Except.bind, Nat.add_sub_cancel, hsep, hpart, hcheck]
  cases final with
  | true => rfl
  | false =>
    simp only [pure, Except.pure, Bool.false_eq_true, if_false]
    cases splitFrom body marker fuel stop with
    | error reason => rfl
    | ok parts => rfl

/-- Splitting joined parts ends early at a part with a line that begins like the
last delimiter. -/
theorem splitFrom_joined (hmarker : marker ≠ []) (hreturn : 13 ∉ marker)
    (hfeed : 10 ∉ marker) (hparts : parts ≠ [])
    (hclean : ∀ part ∈ parts, ¬HasDelimiter marker part) (hbefore : lineEnd <:+ before)
    {fuel : Nat} (hfuel : parts.length ≤ fuel) :
    ∃ result, splitFrom (before ++ joinParts marker parts) marker fuel before.length = .ok result ∧
      (result = parts ↔ ∀ part ∈ parts.dropLast, ¬Closes marker part) := by
  induction parts generalizing before fuel with
  | nil => exact absurd rfl hparts
  | cons part rest ih =>
    cases fuel with
    | zero => cases hfuel
    | succ fuel =>
      have hpart := hclean part List.mem_cons_self
      cases rest with
      | nil =>
        have hbody : before ++ joinParts marker [part] = before ++
            (part ++ 13 :: 10 :: (marker ++ (ascii "--" ++ 13 :: 10 :: []))) := rfl
        obtain ⟨flag, _, hscan⟩ :=
          scan_delimiter hmarker hreturn hfeed hbefore hpart (.inr rfl) hbody
        rw [decide_eq_true rfl, Bool.or_true] at hscan
        refine ⟨[part], ?_, by simp⟩
        have hround := splitFrom_found (by rw [hbody, List.append_assoc]; rfl) hscan fuel
        rwa [if_pos rfl] at hround
      | cons next others =>
        have hbody : before ++ joinParts marker (part :: next :: others) = before ++
            (part ++ 13 :: 10 :: (marker ++
              ([] ++ 13 :: 10 :: joinParts marker (next :: others)))) := rfl
        obtain ⟨flag, hflag, hscan⟩ :=
          scan_delimiter hmarker hreturn hfeed hbefore hpart (.inl rfl) hbody
        have hround := splitFrom_found (by rw [hbody, List.append_assoc]; rfl) hscan fuel
        rw [decide_eq_false (by decide), Bool.or_false] at hround
        rw [hround]
        cases flag with
        | true =>
          have hcloses := hflag.mp rfl
          refine ⟨[part], rfl, by simp, fun hnone => ?_⟩
          exact absurd hcloses (hnone part (by simp))
        | false =>
          obtain ⟨result, hresult, hiff⟩ := ih (List.cons_ne_nil _ _)
            (fun other hother => hclean other (List.mem_cons_of_mem _ hother))
            (show lineEnd <:+ before ++ part ++ lineEnd ++ (marker ++ ([] ++ lineEnd))
              from ⟨before ++ part ++ lineEnd ++ marker, by simp⟩)
            (Nat.le_of_succ_le_succ hfuel)
          have hsame : before ++ joinParts marker (part :: next :: others) =
              before ++ part ++ lineEnd ++ (marker ++ ([] ++ lineEnd)) ++
                joinParts marker (next :: others) := by
            rw [hbody]
            simp [lineEnd]
          rw [if_neg Bool.false_ne_true, hsame, hresult]
          refine ⟨part :: result, rfl, ?_⟩
          have hlast : (part :: next :: others).dropLast = part :: (next :: others).dropLast := rfl
          rw [List.cons.injEq, hiff, hlast, List.forall_mem_cons, ← hflag]
          simp

theorem InOrder.later {rest : Text} (horder : InOrder parts rest) (gap : Text) :
    InOrder parts (gap ++ rest) := by
  cases horder with
  | nil => exact .nil _
  | cons inner hrest =>
    rw [← List.append_assoc]
    exact .cons _ hrest

theorem splitFrom_inOrder {body : Text} {fuel partStart : Nat}
    (hsplit : splitFrom body marker fuel partStart = .ok parts) :
    InOrder parts (body.drop partStart) := by
  induction fuel generalizing partStart parts with
  | zero => cases hsplit
  | succ fuel ih =>
    rw [splitFrom, bind_ok_iff] at hsplit
    have hslice (first last : Nat) (hlast : first ≤ last) :
        body.drop first = slice body first last ++ body.drop last := by
      have hrest : body.drop last = (body.drop first).drop (last - first) := by
        rw [List.drop_drop, Nat.add_sub_cancel' hlast]
      rw [slice, List.drop_take, hrest, List.take_append_drop]
    obtain ⟨⟨part, _ | stop⟩, hround, hsplit⟩ := hsplit
    · cases hsplit
      simp only [splitRound, bind_ok_iff, require_ok_iff, check_ok_iff, pure_ok_iff,
        Bool.and_eq_true, decide_eq_true_eq, Prod.mk.injEq] at hround
      obtain ⟨⟨start, _, _⟩, _, _, ⟨hroom, _⟩, rfl, _⟩ := hround
      rw [hslice partStart (start - 2) (by omega)]
      exact .cons [] (.nil _)
    · simp only [bind_ok_iff, pure_ok_iff] at hsplit
      obtain ⟨others, hothers, rfl⟩ := hsplit
      obtain ⟨start, hnext, hroom, _, rfl⟩ := splitRound_inner hround
      obtain ⟨_, ⟨_, _, _, _, _, hstop⟩, _⟩ := nextRawBoundary_inner hnext
      have hrest := (ih hothers).later (slice body (start - 2) stop)
      rw [← hslice (start - 2) stop (by omega)] at hrest
      rw [hslice partStart (start - 2) (by omega)]
      exact .cons [] hrest

section OneLine

variable {part : Text} (hplain : 13 ∉ part)

include hplain

theorem closes_plain (hcloses : Closes marker part) : marker ++ ascii "--" <+: part := by
  obtain ⟨before, after, hbegins, rfl⟩ := hcloses
  obtain rfl : before = [] := hbegins.resolve_right fun hline => hplain
    (List.mem_append_left _ (hline.subset List.mem_cons_self))
  exact ⟨after, by simp⟩

/-- A line that ends with another byte than a blank is a delimiter only as a bare marker. -/
theorem clean_of_last {byte : UInt8} (hlast : part.getLast? = some byte)
    (hblank : isBlank byte = false) (hopen : part ≠ marker)
    (hclosed : part ≠ marker ++ ascii "--") : ¬HasDelimiter marker part := by
  rintro ⟨before, closing, blanks, after, hbegins, hclosing, hblanks, hafter, rfl⟩
  obtain rfl : before = [] := hbegins.resolve_right fun hline => hplain
    (List.mem_append_left _ (hline.subset List.mem_cons_self))
  obtain rfl : after = [] := hafter.resolve_right fun hline => hplain
    (by simp [hline.subset (show 13 ∈ lineEnd from List.mem_cons_self)])
  rcases List.eq_nil_or_concat blanks with rfl | ⟨others, blank, rfl⟩
  · rcases hclosing with rfl | rfl
    · simp at hopen
    · simp at hclosed
  · have hsame : blank = byte := by simpa [← List.append_assoc] using hlast
    rw [hsame] at hblanks
    exact absurd (hblanks byte (by simp)) (by simp [hblank])

end OneLine

/-- What holds of the scanner on every input: its loops end when nothing bounds
their rounds, with the answer that any fuel beyond the length of the text gives, and
what it returns stands in the text in order. -/
structure ScannerSound : Prop where
  scanning : ∀ body marker : Text, marker ≠ [] → ∀ fuel searchFrom final,
    body.length < fuel → nextRawBoundary body marker fuel searchFrom final ∈
      PFun.fix (PFun.lift (boundaryRound body marker)) (searchFrom, final)
  splitting : ∀ body marker : Text, marker ≠ [] → ∀ fuel partStart,
    body.length < fuel → splitFrom body marker fuel partStart ∈
      PFun.fix (PFun.lift (collectRound body marker)) (partStart, [])
  ordered : ∀ body boundary parts, splitRawMIMEParts body boundary = .ok parts → InOrder parts body

theorem scanner_sound : ScannerSound where
  scanning _ _ hmarker _ _ final hfuel := nextRawBoundary_ends hmarker (by omega) final
  splitting body _ hmarker fuel partStart hfuel := by
    have hends := splitFrom_ends hmarker (show body.length < fuel + partStart by omega) []
    simpa only [List.nil_append, id_map'] using hends
  ordered body boundary parts hsplit := by
    simp only [splitRawMIMEParts, bind_ok_iff, require_ok_iff, Prod.exists] at hsplit
    obtain ⟨_, _, _, stop, _, _, _, _, hparts⟩ := hsplit
    have horder := (splitFrom_inOrder hparts).later (body.take stop)
    rwa [List.take_append_drop] at horder

/-- Splitting gives the joined parts back exactly when no line before the last
part begins like the last delimiter. -/
theorem split_joined_iff (boundary : Text) (hboundary : boundary ≠ [])
    (hreturn : 13 ∉ boundary) (hfeed : 10 ∉ boundary) (parts : List Text) (hparts : parts ≠ [])
    (hclean : ∀ part ∈ parts, ¬HasDelimiter (ascii "--" ++ boundary) part) :
    ScannerSound ∧ (splitRawMIMEParts (joinedParts boundary parts) boundary = .ok parts ↔
        ∀ part ∈ parts.dropLast, ¬Closes (ascii "--" ++ boundary) part) := by
  refine ⟨scanner_sound, ?_⟩
  have hmarker : ascii "--" ++ boundary ≠ [] := by simp [hboundary]
  have hplain (byte : UInt8) (hbyte : byte ∉ boundary) (hdash : byte ∉ ascii "--") :
      byte ∉ ascii "--" ++ boundary := by
    simp [hbyte, hdash]
  have hfirst : scan (joinedParts boundary parts) (ascii "--" ++ boundary) 0 false =
      some (0, (ascii "--" ++ boundary ++ lineEnd).length, false) :=
    scan_here hmarker (.inl rfl) (.inl rfl)
      (show joinedParts boundary parts = [] ++ (ascii "--" ++ boundary ++ ([] ++ 13 :: 10 ::
        joinParts (ascii "--" ++ boundary) parts)) by rw [joinedParts, List.append_assoc]; rfl)
      false
  have hlong : parts.length ≤ (joinedParts boundary parts).length + 1 := by
    have hlength := length_joinParts (ascii "--" ++ boundary) parts
    rw [joinedParts, List.length_append]
    omega
  obtain ⟨result, hresult, hiff⟩ := splitFrom_joined hmarker
    (hplain 13 hreturn (by decide)) (hplain 10 hfeed (by decide)) hparts hclean
    (show lineEnd <:+ ascii "--" ++ boundary ++ lineEnd from List.suffix_append _ _) hlong
  have hsplit : splitRawMIMEParts (joinedParts boundary parts) boundary = .ok result := by
    unfold splitRawMIMEParts
    dsimp only
    rw [show nextRawBoundary _ _ _ _ _ = _ from hfirst]
    simp only [check, bne_iff_ne.mpr hboundary, if_true, bind, Except.bind, require, Bool.not_false]
    exact hresult
  rw [hsplit, ← hiff, Except.ok.injEq]

/-- Three parts, of which the first and the last only look like delimiters. -/
def mimics : List Text := [ascii "--bx", ascii "y", ascii "--b--z"]

theorem split_joined_iff_mimics :
    splitRawMIMEParts (joinedParts (ascii "b") mimics) (ascii "b") = .ok mimics := by
  refine (split_joined_iff (ascii "b") (by decide) (by decide) (by decide) mimics
    (by decide) ?_).2.mpr ?_
  · intro part hpart
    have hshape : 13 ∉ part ∧ (∃ byte ∈ part.getLast?, isBlank byte = false) ∧
        part ≠ ascii "--b" ∧ part ≠ ascii "--b--" := by
      revert part
      decide
    obtain ⟨hplain, ⟨_, hlast, hblank⟩, hopen, hclosed⟩ := hshape
    exact clean_of_last hplain hlast hblank hopen hclosed
  · intro part hpart
    have hshape : 13 ∉ part ∧ ¬ascii "--b--" <+: part := by
      revert part
      decide
    exact fun hcloses => hshape.2 (closes_plain hshape.1 hcloses)

/-- A line that only begins like the last delimiter ends the list of parts. -/
theorem split_joined_truncated :
    (∀ part ∈ [ascii "--b--x", ascii "y"], ¬HasDelimiter (ascii "--" ++ ascii "b") part) ∧
      splitRawMIMEParts (joinedParts (ascii "b") [ascii "--b--x", ascii "y"]) (ascii "b") =
        .ok [ascii "--b--x"] := by
  refine ⟨?_, by decide +kernel⟩
  intro part hpart
  rcases List.mem_pair.mp hpart with rfl | rfl
  · exact clean_of_last (by decide) rfl (by decide) (by decide) (by decide)
  · exact clean_of_last (by decide) rfl (by decide) (by decide) (by decide)

end GotthMail
