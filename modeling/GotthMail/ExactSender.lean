/-
What an accepted signature says about the headers outside of it.  The scanner
stops at the first two delimiter lines, so that the signed part stands between
them, and two accepted messages with one signed part agree on the author, the
subject, the date and the identifier.
-/
import GotthMail.OpenPGP

namespace GotthMail

open Bytes Framing Sha256 Wire MimeText Headers

def LineStart (body : Text) (start : Nat) : Prop :=
  start = 0 ∨ 2 ≤ start ∧ slice body (start - 2) start = lineEnd

/-- A delimiter line of the boundary starts here, an inner one or the last. -/
def IsDelimiter (body marker : Text) (start : Nat) : Prop :=
  LineStart body start ∧ ∃ closing blanks : Text, (∀ byte ∈ blanks, isBlank byte = true) ∧
      ((closing = [] ∨ closing = ascii "--") ∧
          (∃ rest, body.drop start = marker ++ closing ++ blanks ++ 13 :: 10 :: rest) ∨
        closing = ascii "--" ∧ body.drop start = marker ++ closing ++ blanks)

/-- An inner delimiter line, and where it ends. -/
def InnerDelimiter (body marker : Text) (start stop : Nat) : Prop :=
  LineStart body start ∧ ∃ blanks rest : Text, (∀ byte ∈ blanks, isBlank byte = true) ∧
      body.drop start = marker ++ blanks ++ 13 :: 10 :: rest ∧
      stop = start + marker.length + blanks.length + 2

section Scanner

variable {body marker : Text} {fuel searchFrom start stop : Nat} {final last : Bool}

theorem lineStart_iff :
    LineStart body start ↔ ¬(start ≠ 0 ∧ (start < 2 ∨ slice body (start - 2) start ≠ lineEnd)) := by
  unfold LineStart
  rw [not_and_or, not_or, not_not, not_lt, not_not]

/-- What one round of the scanner does with the first marker it meets. -/
theorem nextRawBoundary_cases (hnext : nextRawBoundary body marker (fuel + 1) searchFrom final =
      some (start, stop, last)) :
    ∃ offset, indexOf marker (body.drop searchFrom) = some offset ∧
      ((¬LineStart body (searchFrom + offset) ∧
          nextRawBoundary body marker fuel (searchFrom + offset + 1) final =
            some (start, stop, last)) ∨
        LineStart body (searchFrom + offset) ∧ ∃ closing after,
            afterMarker body (searchFrom + offset + marker.length) = (closing, after) ∧
            ((after = body.length ∧ (final || closing) = true ∧
                searchFrom + offset = start ∧ last = true) ∨
              ((body.drop after).take 2 = lineEnd ∧ searchFrom + offset = start ∧
                stop = after + 2 ∧ last = (final || closing)) ∨
              ((body.drop after).take 2 ≠ lineEnd ∧
                nextRawBoundary body marker fuel (searchFrom + offset + 1)
                  (final || closing) = some (start, stop, last)))) := by
  rw [nextRawBoundary, boundaryRound] at hnext
  cases hoffset : indexOf marker (body.drop searchFrom) with
  | none =>
    rw [hoffset] at hnext
    cases hnext
  | some offset =>
    refine ⟨offset, rfl, ?_⟩
    rw [hoffset] at hnext
    dsimp only at hnext
    by_cases hstart : LineStart body (searchFrom + offset)
    · rw [if_neg (lineStart_iff.mp hstart)] at hnext
      generalize afterMarker body (searchFrom + offset + marker.length) = follows at hnext ⊢
      obtain ⟨closing, after⟩ := follows
      refine .inr ⟨hstart, closing, after, rfl, ?_⟩
      by_cases hend : after = body.length
      · rw [if_pos hend, Option.ite_none_right_eq_some] at hnext
        obtain ⟨hfinal, hnext⟩ := hnext
        cases hnext
        exact .inl ⟨hend, hfinal, rfl, rfl⟩
      · rw [if_neg hend] at hnext
        by_cases hline : (body.drop after).take 2 = lineEnd
        · rw [if_pos hline] at hnext
          cases hnext
          exact .inr (.inl ⟨hline, rfl, rfl, rfl⟩)
        · rw [if_neg hline] at hnext
          exact .inr (.inr ⟨hline, hnext⟩)
    · rw [if_pos (not_not.mp (mt lineStart_iff.mpr hstart))] at hnext
      exact .inl ⟨hstart, hnext⟩

/-- The answer that a delimiter is the last one is never taken back. -/
theorem nextRawBoundary_final (hnext : nextRawBoundary body marker fuel searchFrom true =
      some (start, stop, last)) : last = true := by
  induction fuel generalizing searchFrom with
  | zero => cases hnext
  | succ fuel ih =>
    obtain ⟨offset, _, ⟨_, hrest⟩ | ⟨_, closing, after, _, hcases⟩⟩ := nextRawBoundary_cases hnext
    · exact ih hrest
    · rcases hcases with ⟨_, _, _, hlast⟩ | ⟨_, _, _, hlast⟩ | ⟨_, hrest⟩
      · exact hlast
      · exact hlast
      · exact ih hrest

theorem drop_append_of_drop {left right : Text} (hbody : body.drop start = left ++ right) :
    body.drop (start + left.length) = right := by
  rw [← List.drop_drop, hbody, List.drop_left]

theorem takeWhile_blanks {blanks rest : Text} (hblanks : ∀ byte ∈ blanks, isBlank byte = true)
    (hrest : ∀ byte, rest.head? = some byte → isBlank byte = false) :
    (blanks ++ rest).takeWhile isBlank = blanks := by
  rw [List.takeWhile_append_of_pos hblanks]
  cases rest with
  | nil => simp
  | cons byte more => simp [hrest byte rfl]

/-- What follows a marker with nothing but blanks before the end of the line. -/
theorem afterMarker_eq {closing blanks rest : Text}
    (hclosing : closing = [] ∨ closing = ascii "--")
    (hblanks : ∀ byte ∈ blanks, isBlank byte = true)
    (hrest : rest = [] ∧ closing = ascii "--" ∨ rest.head? = some 13)
    (hbody : body.drop stop = closing ++ (blanks ++ rest)) :
    afterMarker body stop =
      (decide (closing = ascii "--"), stop + closing.length + blanks.length) := by
  have hword : (blanks ++ rest).takeWhile isBlank = blanks := by
    refine takeWhile_blanks hblanks fun byte hbyte => ?_
    rcases hrest with ⟨rfl, _⟩ | hrest
    · cases hbyte
    · rw [hrest] at hbyte
      cases hbyte
      decide
  rcases hclosing with rfl | rfl
  · have hdashes : (body.drop stop).take 2 ≠ ascii "--" := by
      rw [hbody, List.nil_append]
      intro hsame
      have hhead : (blanks ++ rest).head? = some 45 := by
        have hfirst := congrArg List.head? hsame
        rwa [List.head?_take, if_neg (by decide)] at hfirst
      cases blanks with
      | nil =>
        rcases hrest with ⟨_, hempty⟩ | hrest
        · exact absurd hempty (by decide)
        · rw [List.nil_append, hrest] at hhead
          exact absurd hhead (by decide)
      | cons byte more =>
        have hbyte := hblanks byte List.mem_cons_self
        rw [List.cons_append, List.head?_cons, Option.some.injEq] at hhead
        rw [hhead] at hbyte
        exact absurd hbyte (by decide)
    have hdecide : decide (([] : Text) = ascii "--") = false := by decide
    rw [afterMarker, beq_eq_false_iff_ne.mpr hdashes, hdecide,
      if_neg Bool.false_ne_true, hbody, List.nil_append, hword, List.length_nil, Nat.add_zero]
  · have hdashes : (body.drop stop).take 2 = ascii "--" := by
      rw [hbody]
      rfl
    have hafter : body.drop (stop + 2) = blanks ++ rest := drop_append_of_drop hbody
    simp only [afterMarker, hdashes, beq_self_eq_true, if_true, hafter, hword, decide_true]
    rfl

theorem afterMarker_spec {closing : Bool} {after : Nat}
    (hafter : afterMarker body stop = (closing, after)) :
    (closing = true ↔ ascii "--" <+: body.drop stop) ∧
      ∃ blanks, (∀ byte ∈ blanks, isBlank byte = true) ∧
        body.drop stop = (if closing then ascii "--" else []) ++ blanks ++
          body.drop after ∧
        after = stop + (if closing then ascii "--" else []).length + blanks.length := by
  obtain ⟨rfl, rfl⟩ := hafter
  refine ⟨by rw [beq_iff_eq, List.prefix_iff_eq_take, eq_comm]; rfl, ?_⟩
  have hdashes : body.drop stop =
      (if (body.drop stop).take 2 == ascii "--" then ascii "--" else []) ++
        body.drop (if (body.drop stop).take 2 == ascii "--" then stop + 2 else stop) := by
    split
    · next hclosing =>
        conv_lhs => rw [← List.take_append_drop 2 (body.drop stop)]
        rw [beq_iff_eq.mp hclosing, List.drop_drop]
    · rfl
  have hsplit := List.takeWhile_append_dropWhile (p := isBlank) (l := body.drop
    (if (body.drop stop).take 2 == ascii "--" then stop + 2 else stop))
  refine ⟨(body.drop (if (body.drop stop).take 2 == ascii "--" then stop + 2
    else stop)).takeWhile isBlank, fun byte hbyte => List.mem_takeWhile_imp hbyte, ?_, ?_⟩
  · rw [List.append_assoc, drop_append_of_drop hsplit.symm, hsplit]
    exact hdashes
  · split <;> rfl

theorem innerDelimiter_of_after {after : Nat} (hstart : LineStart body start)
    (hmarker : marker <+: body.drop start)
    (hafter : afterMarker body (start + marker.length) = (false, after))
    (hend : (body.drop after).take 2 = lineEnd) : InnerDelimiter body marker start (after + 2) := by
  obtain ⟨tail, htail⟩ := hmarker
  obtain ⟨_, blanks, hblanks, hbody, hstop⟩ := afterMarker_spec hafter
  simp only [Bool.false_eq_true, if_false, List.nil_append, List.length_nil,
    Nat.add_zero] at hbody hstop
  subst hstop
  have hrest := List.take_append_drop 2 (body.drop (start + marker.length + blanks.length))
  rw [hend] at hrest
  refine ⟨hstart, blanks,
    (body.drop (start + marker.length + blanks.length)).drop 2, hblanks, ?_, rfl⟩
  rw [drop_append_of_drop htail.symm, ← hrest] at hbody
  rw [← htail, hbody, List.append_assoc]
  rfl

theorem not_isDelimiter_of_after {after : Nat}
    (hafter : afterMarker body (start + marker.length) = (false, after))
    (hend : (body.drop after).take 2 ≠ lineEnd) : ¬IsDelimiter body marker start := by
  rintro ⟨_, closing, blanks, hblanks, ⟨hclosing, rest, hline⟩ | ⟨rfl, hline⟩⟩
  · rw [List.append_assoc, List.append_assoc] at hline
    have hfollows := drop_append_of_drop hline
    have heq := afterMarker_eq hclosing hblanks (.inr rfl) hfollows
    rw [hafter, Prod.mk.injEq] at heq
    obtain ⟨_, rfl⟩ := heq
    have hblank := drop_append_of_drop (drop_append_of_drop hfollows)
    rw [hblank] at hend
    exact hend rfl
  · rw [List.append_assoc] at hline
    have hfollows := drop_append_of_drop hline
    rw [← List.append_nil blanks] at hfollows
    have heq := afterMarker_eq (.inr rfl) hblanks (.inl ⟨rfl, rfl⟩) hfollows
    rw [hafter, Prod.mk.injEq] at heq
    exact absurd heq.1 (by decide)

/-- An inner delimiter is the first delimiter from where the search started. -/
theorem nextRawBoundary_inner (hnext : nextRawBoundary body marker fuel searchFrom false =
      some (start, stop, false)) :
    searchFrom ≤ start ∧ InnerDelimiter body marker start stop ∧
      ∀ other, searchFrom ≤ other → other < start → ¬IsDelimiter body marker other := by
  induction fuel generalizing searchFrom with
  | zero => cases hnext
  | succ fuel ih =>
    obtain ⟨offset, hoffset, hcases⟩ := nextRawBoundary_cases hnext
    obtain ⟨hmarker, hearlier⟩ := indexOf_some hoffset
    -- no delimiter starts before the first marker
    have hbefore : ∀ other, searchFrom ≤ other → other < searchFrom + offset →
        ¬IsDelimiter body marker other := by
      rintro other hfrom hother ⟨_, closing, blanks, _, hline⟩
      refine hearlier (other - searchFrom) (by omega) ?_
      rw [List.drop_drop, show searchFrom + (other - searchFrom) = other by omega]
      rcases hline with ⟨_, rest, hline⟩ | ⟨_, hline⟩
      · rw [hline, List.append_assoc, List.append_assoc]
        exact List.prefix_append _ _
      · rw [hline, List.append_assoc]
        exact List.prefix_append _ _
    have hskip (hhere : ¬IsDelimiter body marker (searchFrom + offset))
        (hrest : nextRawBoundary body marker fuel (searchFrom + offset + 1) false =
          some (start, stop, false)) :
        searchFrom ≤ start ∧ InnerDelimiter body marker start stop ∧
          ∀ other, searchFrom ≤ other → other < start → ¬IsDelimiter body marker other := by
      obtain ⟨hstart, hinner, hnone⟩ := ih hrest
      refine ⟨by omega, hinner, fun other hfrom hother => ?_⟩
      rcases Nat.lt_trichotomy other (searchFrom + offset) with hless | rfl | hmore
      · exact hbefore other hfrom hless
      · exact hhere
      · exact hnone other hmore hother
    rcases hcases with ⟨hinside, hrest⟩ | ⟨hline, closing, after, hafter, hcases⟩
    · exact hskip (fun hhere => hinside hhere.1) hrest
    · rw [List.drop_drop] at hmarker
      rcases hcases with ⟨_, _, _, hlast⟩ | ⟨hend, rfl, rfl, hlast⟩ | ⟨hend, hrest⟩
      · cases hlast
      · subst hlast
        exact ⟨Nat.le_add_right _ _, innerDelimiter_of_after hline hmarker hafter hend, hbefore⟩
      · have hopen : closing = false := by
          cases closing with
          | false => rfl
          | true => cases nextRawBoundary_final hrest
        subst hopen
        exact hskip (not_isDelimiter_of_after hafter hend) hrest

end Scanner

/-- A part between the first two delimiter lines of a boundary. -/
def Enclosed (body boundary part : Text) : Prop :=
  ∃ first firstEnd second secondEnd,
    InnerDelimiter body (ascii "--" ++ boundary) first firstEnd ∧
      (∀ other < first, ¬IsDelimiter body (ascii "--" ++ boundary) other) ∧
      InnerDelimiter body (ascii "--" ++ boundary) second secondEnd ∧
      (∀ other, firstEnd ≤ other → other < second →
        ¬IsDelimiter body (ascii "--" ++ boundary) other) ∧
      firstEnd + 2 ≤ second ∧ part = slice body firstEnd (second - 2) ∧
      slice body (second - 2) second = lineEnd

/-- The signed part stands in a message, after its header and between the first
two delimiter lines of the boundary that the header declares. -/
def SignedPart (p : Platform) (lib : MailLibrary) (signed part : Text) : Prop :=
  ∃ header body boundary, readCanonicalMIMEEntity signed = .ok (header, body) ∧
    body <:+ signed ∧ declaredBoundary p lib header = .ok boundary ∧ Enclosed body boundary part

/-- Case folding is an equivalence. -/
structure Platform.Folds (p : Platform) : Prop where
  symm : ∀ left right, p.equalFold left right = true → p.equalFold right left = true
  trans : ∀ left middle right, p.equalFold left middle = true →
    p.equalFold middle right = true → p.equalFold left right = true

section Accepted

variable {p : Platform} {lib : MailLibrary} {ring : Option KeyRing}
  {expected : Identity} {signed data signature : Text} {header : Header}

/-- A round with another part after it ends at an inner delimiter. -/
theorem splitRound_inner {body marker part : Text} {partStart stop : Nat}
    (hround : splitRound body marker partStart = .ok (part, some stop)) :
    ∃ start, nextRawBoundary body marker (body.length + 1) partStart false =
        some (start, stop, false) ∧ partStart + 2 ≤ start ∧
      slice body (start - 2) start = lineEnd ∧ part = slice body partStart (start - 2) := by
  simp only [splitRound, bind_ok_iff, require_ok_iff, check_ok_iff, pure_ok_iff, Bool.and_eq_true,
    decide_eq_true_eq, beq_iff_eq, Prod.mk.injEq] at hround
  obtain ⟨⟨start, after, final⟩, hnext, _, ⟨hroom, hend⟩, rfl, hstop⟩ := hround
  cases final with
  | true => cases hstop
  | false =>
    cases hstop
    exact ⟨start, hnext, hroom, hend, rfl⟩

theorem splitRawMIMEParts_enclosed {body boundary first second : Text}
    (hsplit : splitRawMIMEParts body boundary = .ok [first, second]) :
    Enclosed body boundary first := by
  simp only [splitRawMIMEParts, bind_ok_iff, check_ok_iff, require_ok_iff] at hsplit
  obtain ⟨_, _, ⟨start, stop, final⟩, hfirst, hsplit⟩ := hsplit
  simp only [Bool.not_eq_true'] at hsplit
  obtain ⟨_, rfl, hsplit⟩ := hsplit
  rw [splitFrom, bind_ok_iff] at hsplit
  obtain ⟨⟨part, _ | after⟩, hround, hsplit⟩ := hsplit
  · cases hsplit
  · simp only [bind_ok_iff, pure_ok_iff] at hsplit
    obtain ⟨others, _, hparts⟩ := hsplit
    obtain ⟨rfl, _⟩ := List.cons.inj hparts
    obtain ⟨next, hnext, hroom, hend, rfl⟩ := splitRound_inner hround
    obtain ⟨_, hinner, hbefore⟩ := nextRawBoundary_inner hfirst
    obtain ⟨_, hsecond, hbetween⟩ := nextRawBoundary_inner hnext
    exact ⟨start, stop, next, after, hinner,
      fun other => hbefore other (Nat.zero_le _), hsecond, hbetween, hroom, rfl, hend⟩

theorem cutHeader_suffix {raw block body : Text}
    (hcut : cutHeader raw = some (block, body)) : body <:+ raw := by
  induction raw generalizing block with
  | nil => cases hcut
  | cons byte rest ih =>
    rw [cutHeader] at hcut
    split at hcut
    · cases hcut
      exact (List.drop_suffix 3 rest).trans (List.suffix_cons byte rest)
    · obtain ⟨cut, hmore, heq⟩ := Option.map_eq_some_iff.mp hcut
      cases heq
      exact (ih hmore).trans (List.suffix_cons byte rest)

theorem readCanonicalMIMEEntity_suffix {raw body : Text}
    (hread : readCanonicalMIMEEntity raw = .ok (header, body)) : body <:+ raw := by
  simp only [readCanonicalMIMEEntity, bind_ok_iff, require_ok_iff, check_ok_iff,
    pure_ok_iff, Prod.mk.injEq] at hread
  obtain ⟨⟨block, rest⟩, hcut, _, _, _, _, _, rfl⟩ := hread
  exact cutHeader_suffix hcut

theorem uniqueHeaderValue_length {field : String} {required : Bool} {value : Text}
    (hunique : uniqueHeaderValue header field required = .ok value) :
    (values header (ascii field)).length ≤ 1 := by
  unfold uniqueHeaderValue at hunique
  split at hunique
  · rename_i hnone
    rw [hnone]
    exact Nat.zero_le _
  · rename_i hone
    rw [hone]
    exact le_refl _
  · cases hunique

theorem uniqueHeaderValue_required {field : String} {value : Text}
    (hunique : uniqueHeaderValue header field true = .ok value) :
    values header (ascii field) = [value] := by
  unfold uniqueHeaderValue at hunique
  split at hunique
  · cases hunique
  · rename_i hone
    cases hunique
    exact hone
  · cases hunique

theorem rejectAmbiguousHeaders_single {fields : List String}
    (hunique : rejectAmbiguousHeaders p header fields = .ok ()) :
    ∀ field ∈ fields, (values header (ascii field)).length ≤ 1 := by
  intro field hfield
  simp only [rejectAmbiguousHeaders, bind_ok_iff] at hunique
  obtain ⟨_, hall, _⟩ := hunique
  obtain ⟨value, hvalue, _⟩ := bind_ok_iff.mp (forM_ok hall field hfield)
  exact uniqueHeaderValue_length hvalue

/-- The first part of a signed message, and its header outside. -/
theorem splitOpenPGPMIME_ok (hsplit : splitOpenPGPMIME p lib signed = .ok (data, signature)) :
    SignedPart p lib signed data ∧
      ∀ header body, readCanonicalMIMEEntity signed = .ok (header, body) →
        ∀ field ∈ ["From", "Sender", "Reply-To", "Message-ID", "Date", "Subject"],
          (values header (ascii field)).length ≤ 1 := by
  simp only [splitOpenPGPMIME, bind_ok_iff] at hsplit
  obtain ⟨⟨header, body⟩, hread, _, hunique, boundary, hboundary, hsplit⟩ := hsplit
  split at hsplit
  · rename_i first second hparts
    simp only [bind_ok_iff, pure_ok_iff, Prod.mk.injEq] at hsplit
    obtain ⟨_, _, _, _, _, _, rfl, rfl⟩ := hsplit
    refine ⟨⟨header, body, boundary, hread, readCanonicalMIMEEntity_suffix hread,
      hboundary, splitRawMIMEParts_enclosed (toOption_ok_iff.mp hparts)⟩, ?_⟩
    intro other rest hother field hfield
    cases hread.symm.trans hother
    refine rejectAmbiguousHeaders_single hunique field ?_
    simp only [List.mem_cons, List.not_mem_nil, or_false] at hfield ⊢
    tauto
  · cases hsplit

/-- Where the parts of a binding come from. -/
theorem authoritativeMessageBinding_ok {binding : AuthoritativeBinding}
    (hbinding : authoritativeMessageBinding p lib header = .ok binding) :
    headerAddress p lib header "From" true = .ok binding.from_ ∧
      ∃ subject, values header (ascii "Subject") = [subject] ∧
        binding.subjectSHA256 = sumHex subject := by
  simp only [authoritativeMessageBinding, bind_ok_iff, pure_ok_iff] at hbinding
  obtain ⟨sender, hsender, _, _, _, _, _, _, _, _, _, _, _, _, subject, hsubject, _, _,
    rfl⟩ := hbinding
  exact ⟨hsender, subject, uniqueHeaderValue_required hsubject, rfl⟩

/-- What an accepted message has met: the headers outside are what the signed part
asserts, and the part has the signature of the expected key. -/
structure Accepted (p : Platform) (lib : MailLibrary) (ring : Option KeyRing)
    (expected : Identity) (header : Header) (part : Text)
    (binding asserted : AuthoritativeBinding) : Prop where
  read : authoritativeMessageBinding p lib header = .ok binding
  asserts : signedEntityAssertions p lib part = .ok asserted
  author : p.equalFold expected.address binding.from_ = true
  agent : p.equalFold binding.sender asserted.sender = true
  replies : p.equalFold binding.replyTo asserted.replyTo = true
  identifier : binding.messageID = asserted.messageID
  instant : binding.date = asserted.date
  subject : binding.subjectSHA256 = asserted.subjectSHA256
  signed : ∃ keys packet signer, ring = some keys ∧
    keys.checkDetachedSignature part packet = .ok signer ∧
    p.equalFold expected.fingerprint (fingerprintText lib signer) = true

theorem verifyExactSender_ok {status : SignatureStatus}
    (haccepted : verifyExactSender p lib ring signed expected = .ok status)
    (hsplit : splitOpenPGPMIME p lib signed = .ok (data, signature)) :
    ∃ header body binding asserted, readCanonicalMIMEEntity signed = .ok (header, body) ∧
        Accepted p lib ring expected header data binding asserted := by
  simp only [verifyExactSender, bind_ok_iff, require_ok_iff, check_ok_iff,
    messageAddress, authoritativeMessageBindingFromBytes] at haccepted
  obtain ⟨keys, hkeys, parts, hparts, packet, _, signer, hsigner, sender,
    ⟨entity, hentity, hsender⟩, binding, ⟨again, hagain, hbinding⟩, asserted, hasserted,
    _, hmatches, _⟩ := haccepted
  cases hsplit.symm.trans hparts
  cases hentity.symm.trans hagain
  have hsame : binding.from_ = sender :=
    Except.ok.inj ((authoritativeMessageBinding_ok hbinding).1.symm.trans hsender)
  simp only [bindingMatches, Bool.and_eq_true, beq_iff_eq] at hmatches
  obtain ⟨⟨⟨⟨⟨⟨⟨⟨⟨_, hauthor⟩, _⟩, hfingerprint⟩, _⟩, hid⟩, hdate⟩, hsubject⟩, hagent⟩,
    hreplies⟩ := hmatches
  exact ⟨entity.1, entity.2, binding, asserted, hentity,
    ⟨hbinding, hasserted, hsame ▸ hauthor, hagent, hreplies, hid, hdate, hsubject,
      keys, packet, signer, hkeys, hsigner, hfingerprint⟩⟩

end Accepted

def subjects (signed : Text) : List Text :=
  match readCanonicalMIMEEntity signed with
  | .ok entity => values entity.1 (ascii "Subject")
  | .error _ => []

/-- Two messages that say the same about their author: the addresses agree up to
case, the identifier, the instant and the subject exactly. -/
structure SameAuthor (p : Platform) (lib : MailLibrary) (left right : Text) :
    Prop where
  bindings : ∃ first second, authoritativeMessageBindingFromBytes p lib left = .ok first ∧
      authoritativeMessageBindingFromBytes p lib right = .ok second ∧
      p.equalFold first.from_ second.from_ = true ∧ p.equalFold first.sender second.sender = true ∧
      p.equalFold first.replyTo second.replyTo = true ∧
      first.messageID = second.messageID ∧ first.date = second.date
  subject : ∃ subject, subjects left = [subject] ∧ subjects right = [subject]

/-- A field of the author occurs at most once in the header of a message. -/
def SingleFields (signed : Text) : Prop :=
  ∀ header body, readCanonicalMIMEEntity signed = .ok (header, body) →
    ∀ field ∈ ["From", "Sender", "Reply-To", "Message-ID", "Date", "Subject"],
      (values header (ascii field)).length ≤ 1

/-- Messages that are accepted for one identity and have one signed part agree on
the headers outside.  The part stands in each of them where a reader looks for it,
and the expected key has signed it, when no signature is forged. -/
theorem verifyExactSender_binds (p : Platform) (hp : p.Folds) (lib : MailLibrary)
    (keys : KeyRing) (expected : Identity) (left right : Text)
    (leftStatus rightStatus : SignatureStatus)
    (hleft : verifyExactSender p lib (some keys) left expected = .ok leftStatus)
    (hright : verifyExactSender p lib (some keys) right expected = .ok rightStatus)
    (part leftSignature rightSignature : Text)
    (hleftPart : splitOpenPGPMIME p lib left = .ok (part, leftSignature))
    (hrightPart : splitOpenPGPMIME p lib right = .ok (part, rightSignature))
    (hsum : Set.InjOn sum256 {subject | subject ∈ subjects left ++ subjects right})
    (issued : Text → Text → Prop) (hunforged : ∀ data packet signer,
      keys.checkDetachedSignature data packet = .ok signer → issued signer data) :
    SameAuthor p lib left right ∧ SingleFields left ∧ SingleFields right ∧
      SignedPart p lib left part ∧ SignedPart p lib right part ∧ ∃ signer, issued signer part ∧
        p.equalFold expected.fingerprint (fingerprintText lib signer) = true := by
  obtain ⟨hleftSigned, hleftSingle⟩ := splitOpenPGPMIME_ok hleftPart
  obtain ⟨hrightSigned, hrightSingle⟩ := splitOpenPGPMIME_ok hrightPart
  obtain ⟨leftHeader, leftBody, first, asserted, hleftRead, hfirst⟩ :=
    verifyExactSender_ok hleft hleftPart
  obtain ⟨rightHeader, rightBody, second, again, hrightRead, hsecond⟩ :=
    verifyExactSender_ok hright hrightPart
  cases hfirst.asserts.symm.trans hsecond.asserts
  have hfold {one other middle : Text} (hone : p.equalFold one middle = true)
      (hother : p.equalFold other middle = true) : p.equalFold one other = true :=
    hp.trans _ _ _ hone (hp.symm _ _ hother)
  have hbytes {signed : Text} {header : Header} {body : Text} {binding : AuthoritativeBinding}
      (hread : readCanonicalMIMEEntity signed = .ok (header, body))
      (hbinding : authoritativeMessageBinding p lib header = .ok binding) :
      authoritativeMessageBindingFromBytes p lib signed = .ok binding := by
    rw [authoritativeMessageBindingFromBytes, hread]
    exact hbinding
  obtain ⟨_, one, hone, honeSum⟩ := authoritativeMessageBinding_ok hfirst.read
  obtain ⟨_, other, hother, hotherSum⟩ := authoritativeMessageBinding_ok hsecond.read
  have hones : subjects left = [one] := by rw [subjects, hleftRead]; exact hone
  have hothers : subjects right = [other] := by rw [subjects, hrightRead]; exact hother
  have hsubject : one = other := by
    rw [hones, hothers] at hsum
    refine sumHex_injective hsum (by simp) (by simp) ?_
    rw [← honeSum, ← hotherSum, hfirst.subject, hsecond.subject]
  obtain ⟨_, packet, signer, hkeys, hsigner, hfingerprint⟩ := hfirst.signed
  cases hkeys
  refine ⟨⟨⟨first, second, hbytes hleftRead hfirst.read, hbytes hrightRead hsecond.read,
      ?_, hfold hfirst.agent hsecond.agent, hfold hfirst.replies hsecond.replies,
      hfirst.identifier.trans hsecond.identifier.symm,
      hfirst.instant.trans hsecond.instant.symm⟩, one, hones, hsubject ▸ hothers⟩,
    hleftSingle, hrightSingle, hleftSigned, hrightSigned, signer,
    hunforged part packet signer hsigner, hfingerprint⟩
  exact hp.trans _ _ _ (hp.symm _ _ hfirst.author) hsecond.author

/-- A dot for each byte of the data in place of a signature. -/
def sealOf (data : Text) : Text := ascii "BEGIN PGP SIGNATURE " ++ List.replicate data.length dot

def sealKey : SigningKey where
  fingerprint := [0xAB]
  armoredDetachSign data := .ok (sealOf data)

def sealRing : KeyRing where
  openArmor packet := .ok packet
  checkDetachedSignature data packet :=
    if packet = sealOf data then .ok [0xAB] else .error (.text "wrong seal")

def noteAuthor : Identity := ⟨ascii "a@example.test", ascii "AB"⟩

def signedNote : Text :=
  (((signMIME asciiPlatform plainMail (some sealKey) (ascii "t") noteAuthor
    (noteMessage (ascii "abc"))).toOption).map Prod.fst).getD []

def tracedNote : Text := ascii "X-Trace: 1\r\n" ++ signedNote

theorem asciiPlatform_folds : asciiPlatform.Folds := by
  constructor
  · intro left right hfold
    simp only [asciiPlatform, beq_iff_eq] at hfold ⊢
    exact hfold.symm
  · intro left middle right hleft hright
    simp only [asciiPlatform, beq_iff_eq] at hleft hright ⊢
    exact hleft.trans hright

/-- A note and the same note after one more hop are accepted, with one signed part. -/
theorem verifyExactSender_binds_notes :
    ∃ part, SameAuthor asciiPlatform plainMail signedNote tracedNote ∧
      SignedPart asciiPlatform plainMail tracedNote part := by
  have hnotes : (verifyExactSender asciiPlatform plainMail (some sealRing) signedNote
        noteAuthor = .ok ⟨ascii "AB", ascii "a@example.test", true⟩ ∧
      verifyExactSender asciiPlatform plainMail (some sealRing) tracedNote
        noteAuthor = .ok ⟨ascii "AB", ascii "a@example.test", true⟩) ∧
      (splitOpenPGPMIME asciiPlatform plainMail signedNote).isOk = true ∧
      (splitOpenPGPMIME asciiPlatform plainMail tracedNote).toOption =
        (splitOpenPGPMIME asciiPlatform plainMail signedNote).toOption ∧
      subjects signedNote = [ascii "hi"] ∧ subjects tracedNote = [ascii "hi"] := by
    decide +kernel
  obtain ⟨⟨hsigned, htraced⟩, hok, hsame, hsubject, hother⟩ := hnotes
  generalize hsplit : splitOpenPGPMIME asciiPlatform plainMail signedNote = split at hok hsame
  cases split with
  | error _ => cases hok
  | ok parts =>
    obtain ⟨part, signature⟩ := parts
    have hsum : Set.InjOn sum256
        {subject | subject ∈ subjects signedNote ++ subjects tracedNote} := by
      rw [hsubject, hother]
      intro one hone other hother _
      simp only [List.cons_append, List.nil_append, List.mem_cons, List.not_mem_nil,
        or_false, or_self, Set.mem_ofPred_eq] at hone hother
      rw [hone, hother]
    obtain ⟨hauthor, _, _, _, hpart, _⟩ := verifyExactSender_binds asciiPlatform
      asciiPlatform_folds plainMail sealRing noteAuthor signedNote tracedNote _ _
      hsigned htraced part signature signature hsplit (toOption_ok_iff.mp hsame) hsum
      (fun signer data => ∃ packet, sealRing.checkDetachedSignature data packet = .ok signer)
      fun data packet signer hchecked => ⟨packet, hchecked⟩
    exact ⟨part, hauthor, hpart⟩

end GotthMail
