/-
Reading IMAP responses.  A response is made of lines and of literals, whose
length is announced at the end of a line; the reader collects both in one list
and looks there for the message and its flags.
-/
import GotthMail.Headers
import GotthMail.Mailbox

namespace GotthMail

open Bytes Framing

/-- The text up to a newline and what follows it. -/
def cutLine : Text → Option (Text × Text)
  | [] => none
  | byte :: rest =>
    if byte = 10 then some ([], rest)
    else (cutLine rest).map fun cut => (byte :: cut.1, cut.2)

def isBreak (byte : UInt8) : Bool := byte == 13 || byte == 10

def readLine (input : Text) : Except Error (Text × Text) := do
  let cut ← require (cutLine input) "EOF"
  return (cut.1.rdropWhile isBreak, cut.2)

/-- The digits of a literal that the end of a line announces. -/
def literalSuffix (line : Text) : Option Text :=
  match line.reverse with
  | 125 :: before =>
    let digits := before.takeWhile isDigit
    if digits ≠ [] ∧ (before.dropWhile isDigit).head? = some 123 then
      some digits.reverse
    else none
  | _ => none

def maxIMAPLiteralBytes : Nat := 106168320

/-- What one call of the reader adds to the collected lines: a line and its
literal, if there is one, and the line that is returned. -/
structure LineRead where
  collected : List Text
  line : Text
  rest : Text

def readLineWithLiteral (input : Text) : Except Error LineRead := do
  let (line, rest) ← readLine input
  match literalSuffix line with
  | none => return ⟨[], line, rest⟩
  | some digits =>
    check (decide (readDecimal digits ≤ maxIMAPLiteralBytes)) "invalid or oversized imap literal"
    check (decide (readDecimal digits ≤ rest.length)) "unexpected EOF"
    let (last, more) ← readLine (rest.drop (readDecimal digits))
    return ⟨[line, rest.take (readDecimal digits)], last, more⟩

/-- The collected lines, and whether the command succeeded. -/
structure Reply where
  lines : List Text
  succeeded : Bool
deriving DecidableEq, Repr

namespace Platform

variable (p : Platform)

/-- Whether a tagged line reports success. -/
def succeeded (line : Text) : Bool :=
  match fields line with
  | _ :: status :: _ => p.equalFold status (ascii "OK")
  | _ => false

/-- Read until a line starts with the tag. -/
def collect (tag : Text) : Nat → List Text → Text → Except Error (Reply × Text)
  | 0, _, _ => .error (.text "EOF")
  | fuel + 1, lines, input => do
      let found ← readLineWithLiteral input
      if found.line = [] then
        collect tag fuel (lines ++ found.collected) found.rest
      else if (tag ++ [32]).isPrefixOf found.line then
        return (⟨lines ++ found.collected ++ [found.line], p.succeeded found.line⟩, found.rest)
      else
        collect tag fuel (lines ++ found.collected ++ [found.line]) found.rest

end Platform

/-- The connection: the number of the last command, what has been sent, and what
the server still has to say. -/
structure ImapConn where
  seq : Nat
  sent : List Text
  input : Text
deriving DecidableEq, Repr

def commandTag (seq : Nat) : Text :=
  65 :: (List.replicate (4 - (decimal seq).length) 48 ++ decimal seq)

def crlf : Text := [13, 10]

/-- Parts of the mail library: the header of a message, dates, encoded words and
the parser of whole messages. -/
structure MailParser where
  readMessage : Text → Option (Text → Text)
  parseDate : Text → Time
  decodeHeader : Text → Text
  parseRawMessage : Text → Text → Text → Except Error Message

def containsText (word text : Text) : Bool := text.tails.any word.isPrefixOf

/-- What is taken for the message among the collected lines. -/
def isPayload (line : Text) : Bool :=
  containsText crlf line || containsText (ascii "Subject:") line ||
    containsText (ascii "From:") line

def imapLiteralPayload (lines : List Text) : Text := (lines.find? isPayload).getD []

/-- Match a word of capital letters regardless of case; the long s is an S. -/
def matchWord : Text → Text → Option Text
  | [], rest => some rest
  | _, [] => none
  | letter :: word, byte :: rest =>
    if byte = letter ∨ byte = letter + 32 then matchWord word rest
    else
      match rest with
      | 0xBF :: more =>
        if letter = 83 ∧ byte = 0xC5 then matchWord word more else none
      | _ => none

def isRegexpSpace (byte : UInt8) : Bool := decide (9 ≤ byte ∧ byte ≤ 13) || byte == 32

/-- The list in parentheses after the word FLAGS. -/
def flagListAt (text : Text) : Option Text := do
  let rest ← matchWord (ascii "FLAGS") text
  if rest.takeWhile isRegexpSpace = [] then none
  else
    match rest.dropWhile isRegexpSpace with
    | 40 :: inner =>
      if 41 ∈ inner then some (inner.takeWhile (· != 41)) else none
    | _ => none

def imapFlags (line : Text) : Option Text := line.tails.findSome? flagListAt

def imapMessageFlags (lines : List Text) : List Text :=
  ((lines.findSome? imapFlags).map fields).getD []

namespace ImapConn

variable (conn : ImapConn)

/-- Send a command and read its reply. -/
def cmd (p : Platform) (command : Text) : Except Error (List Text) × ImapConn :=
  let tag := commandTag (conn.seq + 1)
  let sent := conn.sent ++ [tag ++ [32] ++ command ++ crlf]
  match p.collect tag (conn.input.length + 1) [] conn.input with
  | .error reason => (.error reason, ⟨conn.seq + 1, sent, []⟩)
  | .ok (reply, rest) =>
    (if reply.succeeded then .ok reply.lines
      else .error (.text "imap command failed"), ⟨conn.seq + 1, sent, rest⟩)

end ImapConn

/-- The fields of a header with the flags that the lines report. -/
def headerMessage (p : Platform) (parser : MailParser) (folder id raw : Text)
    (lines : List Text) : Except Error Message := do
  let header ← require (parser.readMessage raw) "invalid imap message summary"
  return {
    id := id
    folder := folder
    from_ := parser.decodeHeader (header (ascii "From"))
    to_ := parser.decodeHeader (header (ascii "To"))
    cc := parser.decodeHeader (header (ascii "Cc"))
    subject := parser.decodeHeader (header (ascii "Subject"))
    bodyHTML := []
    bodyText := []
    date := parser.parseDate (header (ascii "Date"))
    flags := imapMessageFlags lines
    attachments := []
    hasAttachments :=
      (ascii "multipart/mixed").isPrefixOf (p.lower (header (ascii "Content-Type"))) ||
        containsText (ascii "attachment") (p.lower (header (ascii "Content-Disposition"))) }

def summaryIn (p : Platform) (parser : MailParser) (folder id : Text)
    (lines : List Text) : Except Error Message := do
  check (imapLiteralPayload lines != []) "imap fetch returned no message summary"
  headerMessage p parser folder id (imapLiteralPayload lines) lines

def fetchHeader (id : Text) : Text :=
  ascii "UID FETCH " ++ id ++ ascii " (FLAGS BODY.PEEK[HEADER.FIELDS (FROM TO CC SUBJECT DATE " ++
    ascii "CONTENT-TYPE CONTENT-DISPOSITION)])"

namespace ImapConn

variable (conn : ImapConn)

def fetchSelectedMessageSummary (p : Platform) (parser : MailParser)
    (folder id : Text) : Except Error Message × ImapConn :=
  if validIMAPUID id then
    let (lines, last) := conn.cmd p (fetchHeader id)
    (lines >>= summaryIn p parser folder id, last)
  else (.error (.text "invalid imap message id"), conn)

end ImapConn

/-- A response of the server: literals, each with the text before it, and the
text after the last one. -/
structure ImapResponse where
  literals : List (Text × Text)
  last : Text
deriving DecidableEq, Repr

def announce (text literal : Text) : Text := text ++ 123 :: decimal literal.length ++ [125]

namespace ImapResponse

variable (response : ImapResponse)

def bytes : Text :=
  (response.literals.flatMap fun part =>
    announce part.1 part.2 ++ crlf ++ part.2) ++ response.last ++ crlf

def lines : List Text :=
  (response.literals.map fun part => announce part.1 part.2) ++
    if response.last = [] then [] else [response.last]

/-- The lines and the literals, each of them whole. -/
def items : List Text :=
  (response.literals.flatMap fun part => [announce part.1 part.2, part.2]) ++
    if response.last = [] then [] else [response.last]

/-- The first text of the response. -/
def start : Text := (response.literals.head?.map Prod.fst).getD response.last

/-- An untagged response: no line breaks outside of literals, and after a literal a
blank, a parenthesis or the end. -/
structure WellFormed (response : ImapResponse) : Prop where
  untagged : ascii "* " <+: response.start
  unbroken : ∀ part ∈ response.literals, part.1.all fun byte => !isBreak byte
  unbroken_last : response.last.all fun byte => !isBreak byte
  resumes : response.literals ≠ [] → response.last = [] ∨ response.last.head? = some 32 ∨
      response.last.head? = some 41

/-- At most one literal, not a larger one than the reader admits, and no text at the end of
the response that looks like the announcement of another one. -/
structure Single (response : ImapResponse) : Prop where
  wellFormed : response.WellFormed
  quiet : literalSuffix response.last = none
  count : response.literals.length ≤ 1
  size : ∀ part ∈ response.literals, part.2.length ≤ maxIMAPLiteralBytes

end ImapResponse

structure Completion where
  status : Text
  text : Text
deriving DecidableEq, Repr

def Completion.line (completion : Completion) (tag : Text) : Text :=
  tag ++ 32 :: completion.status ++ 32 :: completion.text

structure Completion.WellFormed (completion : Completion) : Prop where
  status_ne : completion.status ≠ []
  graphic : ∀ byte ∈ completion.status, isGraphic byte = true
  unbroken : completion.text.all fun byte => !isBreak byte

/-- The responses to a command and its completion. -/
structure Exchange where
  responses : List ImapResponse
  completion : Completion
deriving DecidableEq, Repr

namespace Exchange

variable (exchange : Exchange)

def bytes (tag : Text) : Text :=
  exchange.responses.flatMap ImapResponse.bytes ++ exchange.completion.line tag ++ crlf

def items (tag : Text) : List Text :=
  exchange.responses.flatMap ImapResponse.items ++ [exchange.completion.line tag]

def lines (tag : Text) : List Text :=
  exchange.responses.flatMap ImapResponse.lines ++ [exchange.completion.line tag]

/-- The replies that are read line by line: at most one literal in every response, and no
line that only looks like the announcement of a literal. -/
structure Plain (exchange : Exchange) (tag : Text) : Prop where
  single : ∀ response ∈ exchange.responses, response.Single
  completion : exchange.completion.WellFormed
  quiet : literalSuffix (exchange.completion.line tag) = none

end Exchange

section Lines

variable {text rest literal : Text}

theorem newline_not_mem (htext : (text.all fun byte => !isBreak byte) = true) : 10 ∉ text := by
  intro hmem
  have hbyte := List.all_eq_true.mp htext 10 hmem
  revert hbyte
  decide

theorem cutLine_append (htext : 10 ∉ text) (rest : Text) :
    cutLine (text ++ 10 :: rest) = some (text, rest) := by
  induction text with
  | nil => rfl
  | cons byte more ih =>
    obtain ⟨hbyte, hmore⟩ := not_or.mp (mt List.mem_cons.mpr htext)
    rw [List.cons_append, cutLine, if_neg (Ne.symm hbyte), ih hmore]
    rfl

/-- A line without breaks is read as it is. -/
theorem readLine_crlf (htext : (text.all fun byte => !isBreak byte) = true)
    (rest : Text) : readLine (text ++ crlf ++ rest) = .ok (text, rest) := by
  have hcut : cutLine (text ++ crlf ++ rest) = some (text ++ [13], rest) := by
    have hnewline : 10 ∉ text ++ [13] := by
      rw [List.mem_append, not_or]
      exact ⟨newline_not_mem htext, by decide⟩
    have happend := cutLine_append hnewline rest
    rwa [List.append_assoc] at happend ⊢
  have hdrop : (text ++ [13]).rdropWhile isBreak = text := by
    rw [List.rdropWhile_concat_pos _ _ _ (by decide), List.rdropWhile_eq_self_iff]
    intro hne
    have hlast := List.all_eq_true.mp htext _ (List.getLast_mem hne)
    simpa using hlast
  unfold readLine
  rw [bind_ok_iff]
  exact ⟨_, require_ok_iff.mpr hcut, by rw [hdrop]; rfl⟩

/-- An announced literal is recognised, with its length. -/
theorem literalSuffix_announce (text literal : Text) :
    literalSuffix (announce text literal) = some (decimal literal.length) := by
  have hreverse : (announce text literal).reverse =
      125 :: ((decimal literal.length).reverse ++ 123 :: text.reverse) := by
    simp [announce]
  have hall : ∀ byte ∈ (decimal literal.length).reverse, isDigit byte = true :=
    fun byte hbyte => isDigit_of_mem_decimal (List.mem_reverse.mp hbyte)
  unfold literalSuffix
  rw [hreverse]
  change (if List.takeWhile isDigit (_ ++ 123 :: _) ≠ [] ∧
    (List.dropWhile isDigit (_ ++ 123 :: _)).head? = _ then some _ else none) = _
  rw [List.takeWhile_append_of_pos hall, List.dropWhile_append_of_pos hall,
    List.takeWhile_cons_of_neg (by decide), List.dropWhile_cons_of_neg (by decide),
    List.append_nil, if_pos, List.reverse_reverse]
  exact ⟨by simpa using decimal_ne_nil literal.length, rfl⟩

theorem announce_unbroken (literal : Text) (htext : (text.all fun byte => !isBreak byte) = true) :
    ((announce text literal).all fun byte => !isBreak byte) = true := by
  have hdigits : ∀ byte, isDigit byte = true → isBreak byte = false := by
    intro byte hbyte
    simp only [isDigit, decide_eq_true_eq, UInt8.le_iff_toNat_le, UInt8.reduceToNat] at hbyte
    simp only [isBreak, Bool.or_eq_false_iff, beq_eq_false_iff_ne, ne_eq,
      ← UInt8.toNat_inj, UInt8.reduceToNat]
    omega
  have hnumber : ((decimal literal.length).all fun byte => !isBreak byte) = true :=
    List.all_eq_true.mpr fun byte hbyte => by
      rw [hdigits byte (isDigit_of_mem_decimal hbyte)]
      rfl
  simp only [announce, List.all_append, List.all_cons, htext, hnumber]
  decide

end Lines

namespace ImapResponse

variable {response : ImapResponse}

/-- A response with at most one literal is read at once. -/
theorem Single.read (hsingle : response.Single) (rest : Text) :
    ∃ collected, readLineWithLiteral (response.bytes ++ rest) =
        .ok ⟨collected, response.last, rest⟩ ∧
      collected ++ (if response.last = [] then [] else [response.last]) =
        response.items := by
  obtain ⟨literals, last⟩ := response
  have hlast : readLine (last ++ crlf ++ rest) = .ok (last, rest) :=
    readLine_crlf hsingle.wellFormed.unbroken_last rest
  match literals, hsingle with
  | [], hsingle =>
    refine ⟨[], ?_, rfl⟩
    have hbytes : bytes ⟨[], last⟩ ++ rest = last ++ crlf ++ rest := rfl
    unfold readLineWithLiteral
    rw [hbytes, bind_ok_iff]
    refine ⟨_, hlast, ?_⟩
    dsimp only
    rw [show literalSuffix last = none from hsingle.quiet]
    rfl
  | [(text, literal)], hsingle =>
    refine ⟨[announce text literal, literal], ?_, rfl⟩
    have hbytes : bytes ⟨[(text, literal)], last⟩ ++ rest =
        announce text literal ++ crlf ++ (literal ++ (last ++ crlf ++ rest)) := by
      simp [bytes]
    have hfirst := readLine_crlf (announce_unbroken literal
      (hsingle.wellFormed.unbroken (text, literal) List.mem_cons_self))
      (literal ++ (last ++ crlf ++ rest))
    have hsize := hsingle.size (text, literal) List.mem_cons_self
    unfold readLineWithLiteral
    rw [hbytes, bind_ok_iff]
    refine ⟨_, hfirst, ?_⟩
    dsimp only
    rw [literalSuffix_announce]
    simp only [readDecimal_decimal, bind_ok_iff, check_ok_iff, pure_ok_iff,
      List.drop_left, List.take_left, decide_eq_true_eq, List.length_append]
    exact ⟨(), hsize, (), by omega, _, hlast, rfl⟩
  | first :: second :: more, hsingle =>
    have hcount := hsingle.count
    simp only [List.length_cons] at hcount
    omega

/-- What is read of a response is not taken for the completion. -/
theorem Single.untagged (hsingle : response.Single) (seq : Nat) :
    (commandTag seq ++ [32]).isPrefixOf response.last = false := by
  rw [Bool.eq_false_iff, ne_eq, List.isPrefixOf_iff_prefix]
  rintro ⟨after, hprefix⟩
  have hhead : response.last.head? = some 65 := by
    rw [← hprefix]
    rfl
  obtain ⟨literals, last⟩ := response
  cases literals with
  | nil =>
    obtain ⟨more, hstart⟩ := hsingle.wellFormed.untagged
    have hstar : last.head? = some 42 := by
      rw [← (show ascii "* " ++ more = last from hstart)]
      rfl
    cases hhead.symm.trans hstar
  | cons part others =>
    rcases hsingle.wellFormed.resumes (List.cons_ne_nil part others) with
      hnil | hblank | hparen
    · rw [hnil] at hhead
      cases hhead
    · cases hhead.symm.trans hblank
    · cases hhead.symm.trans hparen

end ImapResponse

section Replies

variable {p : Platform} {seq : Nat} {responses : List ImapResponse} {completion : Completion}

theorem commandTag_graphic (seq : Nat) : ∀ byte ∈ commandTag seq, isGraphic byte = true := by
  have hdigit : ∀ byte, isDigit byte = true → isGraphic byte = true := by
    intro byte hbyte
    simp only [isDigit, isGraphic, decide_eq_true_eq, UInt8.le_iff_toNat_le,
      UInt8.reduceToNat] at hbyte ⊢
    omega
  intro byte hbyte
  rcases List.mem_cons.mp hbyte with rfl | hbyte
  · decide
  · rcases List.mem_append.mp hbyte with hzero | hnumber
    · rw [List.eq_of_mem_replicate hzero]
      decide
    · exact hdigit byte (isDigit_of_mem_decimal hnumber)

theorem commandTag_ne_nil (seq : Nat) : commandTag seq ≠ [] := List.cons_ne_nil _ _

theorem unbroken_of_graphic {text : Text} (htext : ∀ byte ∈ text, isGraphic byte = true) :
    (text.all fun byte => !isBreak byte) = true := by
  rw [List.all_eq_true]
  intro byte hbyte
  have hgraphic := htext byte hbyte
  simp only [isGraphic, decide_eq_true_eq, UInt8.le_iff_toNat_le, UInt8.reduceToNat] at hgraphic
  simp only [isBreak, Bool.not_eq_true', Bool.or_eq_false_iff,
    beq_eq_false_iff_ne, ne_eq, ← UInt8.toNat_inj, UInt8.reduceToNat]
  omega

theorem Completion.WellFormed.succeeded (hcompletion : completion.WellFormed) :
    p.succeeded (completion.line (commandTag seq)) =
      p.equalFold completion.status (ascii "OK") := by
  have hfields : fields (completion.line (commandTag seq)) =
      commandTag seq :: completion.status :: fields completion.text := by
    have hline : completion.line (commandTag seq) = commandTag seq ++ 32 ::
        (completion.status ++ 32 :: completion.text) := by
      simp [Completion.line]
    rw [hline, fields_word (commandTag_ne_nil seq) (commandTag_graphic seq),
      fields_word hcompletion.status_ne hcompletion.graphic]
  rw [Platform.succeeded, hfields]

theorem Completion.WellFormed.read (hcompletion : completion.WellFormed)
    (hquiet : literalSuffix (completion.line (commandTag seq)) = none) (rest : Text) :
    readLineWithLiteral (completion.line (commandTag seq) ++ crlf ++ rest) =
      .ok ⟨[], completion.line (commandTag seq), rest⟩ := by
  have hunbroken : ((completion.line (commandTag seq)).all fun byte => !isBreak byte) = true := by
    simp only [Completion.line, List.all_append, List.all_cons,
      unbroken_of_graphic (commandTag_graphic seq),
      unbroken_of_graphic hcompletion.graphic, hcompletion.unbroken]
    decide
  unfold readLineWithLiteral
  rw [bind_ok_iff]
  refine ⟨_, readLine_crlf hunbroken rest, ?_⟩
  dsimp only
  rw [hquiet]
  rfl

end Replies

/-- The flags stand before the first literal. -/
def FlagsFirst (responses : List ImapResponse) : Prop :=
  ∃ before response after line, responses = before ++ response :: after ∧
    (∀ earlier ∈ before, earlier.literals = []) ∧
    response.lines.head? = some line ∧ (imapFlags line).isSome

/-- The replies in which the reader finds its way: no literal that could be taken for the
flags, and the requested literal the first thing that could be taken for the message. -/
structure Legible (exchange : Exchange) (body : Text) : Prop where
  flags : FlagsFirst exchange.responses ∨
    ∀ response ∈ exchange.responses, ∀ part ∈ response.literals, imapFlags part.2 = none
  body : ∃ before text last after, exchange.responses = before ++ ⟨[(text, body)], last⟩ :: after ∧
      (∀ item ∈ before.flatMap ImapResponse.items ++ [announce text body], isPayload item = false) ∧
      isPayload body = true

/-- Among all that was collected, literals included, the first flag list is that of the
protocol lines and the first text that looks like a message is the requested literal. -/
structure Found (exchange : Exchange) (tag body : Text) : Prop where
  flags : ((exchange.items tag).findSome? imapFlags).map fields =
    ((exchange.lines tag).findSome? imapFlags).map fields
  body : (exchange.items tag).find? isPayload = some body

section Contents

variable {exchange other : Exchange} {tag body : Text}
  {responses : List ImapResponse} {response : ImapResponse}

theorem findSome?_literals (hnone : ∀ part ∈ response.literals, imapFlags part.2 = none) :
    response.items.findSome? imapFlags = response.lines.findSome? imapFlags := by
  unfold ImapResponse.items ImapResponse.lines
  rw [List.findSome?_append, List.findSome?_append]
  congr 1
  generalize response.literals = literals at hnone
  induction literals with
  | nil => rfl
  | cons part others ih =>
    have hpart := hnone part List.mem_cons_self
    have hrest := ih fun other hother => hnone other (List.mem_cons_of_mem part hother)
    rw [List.flatMap_cons, List.map_cons, List.cons_append, List.cons_append,
      List.nil_append, List.findSome?_cons, List.findSome?_cons, hpart, List.findSome?_cons, hrest]

theorem findSome?_responses (hnone : ∀ response ∈ responses, ∀ part ∈ response.literals,
      imapFlags part.2 = none) :
    (responses.flatMap ImapResponse.items).findSome? imapFlags =
      (responses.flatMap ImapResponse.lines).findSome? imapFlags := by
  induction responses with
  | nil => rfl
  | cons response others ih =>
    rw [List.flatMap_cons, List.flatMap_cons, List.findSome?_append,
      List.findSome?_append, findSome?_literals (hnone response List.mem_cons_self),
      ih fun other hother => hnone other (List.mem_cons_of_mem response hother)]

/-- The first line of a response comes before its literals. -/
theorem head?_items (response : ImapResponse) : response.items.head? = response.lines.head? := by
  obtain ⟨literals, last⟩ := response
  cases literals with
  | nil => rfl
  | cons part others => rfl

/-- The flags are those of the protocol lines. -/
theorem Legible.flags_eq (hlegible : Legible exchange body) (tag : Text) :
    (exchange.items tag).findSome? imapFlags = (exchange.lines tag).findSome? imapFlags := by
  unfold Exchange.items Exchange.lines
  rw [List.findSome?_append, List.findSome?_append]
  congr 1
  rcases hlegible.flags with hfirst | hnone
  · obtain ⟨before, response, after, line, hresponses, hplain, hline, hsome⟩ := hfirst
    obtain ⟨flags, hflags⟩ := Option.isSome_iff_exists.mp hsome
    have hhead := (head?_items response).trans hline
    obtain ⟨moreItems, hitems⟩ := List.head?_eq_some_iff.mp hhead
    obtain ⟨moreLines, hlines⟩ := List.head?_eq_some_iff.mp hline
    have hbare : ∀ earlier ∈ before, ∀ part ∈ earlier.literals, imapFlags part.2 = none := by
      intro earlier hearlier part hpart
      rw [hplain earlier hearlier] at hpart
      cases hpart
    have hbefore := findSome?_responses hbare
    rw [hresponses, List.flatMap_append, List.flatMap_append,
      List.findSome?_append, List.findSome?_append, hbefore, List.flatMap_cons,
      List.flatMap_cons, hitems, hlines, List.cons_append, List.cons_append,
      List.findSome?_cons, List.findSome?_cons, hflags]
  · exact findSome?_responses hnone

theorem Legible.found (hlegible : Legible exchange body) (tag : Text) :
    Found exchange tag body := by
  refine ⟨congrArg _ (hlegible.flags_eq tag), ?_⟩
  obtain ⟨before, text, last, after, hresponses, hearlier, hbody⟩ := hlegible.body
  have hnone : (before.flatMap ImapResponse.items ++
      [announce text body]).find? isPayload = none := by
    rw [List.find?_eq_none]
    exact fun item hitem => by rw [hearlier item hitem]; exact Bool.false_ne_true
  have hitems : exchange.items tag = (before.flatMap ImapResponse.items ++
      [announce text body]) ++ body :: (((if last = [] then [] else [last]) ++
        after.flatMap ImapResponse.items) ++ [exchange.completion.line tag]) := by
    simp [Exchange.items, hresponses, ImapResponse.items]
  rw [hitems, List.find?_append, hnone, Option.none_or, List.find?_cons_of_pos hbody]

theorem Found.payload (hfound : Found exchange tag body) :
    imapLiteralPayload (exchange.items tag) = body ∧ (body != []) = true := by
  have hbody := List.find?_some hfound.body
  refine ⟨by rw [imapLiteralPayload, hfound.body]; rfl, ?_⟩
  rw [bne_iff_ne]
  rintro rfl
  revert hbody
  decide

theorem Found.summaryIn (hfound : Found exchange tag body) (p : Platform)
    (parser : MailParser) (folder id : Text) :
    summaryIn p parser folder id (exchange.items tag) =
      headerMessage p parser folder id body (exchange.lines tag) := by
  unfold GotthMail.summaryIn headerMessage imapMessageFlags
  rw [hfound.payload.1, hfound.flags, hfound.payload.2]
  rfl

/-- Responses that differ only in the bytes of their literals. -/
structure ImapResponse.Alike (first second : ImapResponse) : Prop where
  literals : List.Forall₂ (fun left right => left.1 = right.1 ∧ left.2.length = right.2.length)
    first.literals second.literals
  last : first.last = second.last

structure Exchange.Alike (first second : Exchange) : Prop where
  responses : List.Forall₂ ImapResponse.Alike first.responses second.responses
  completion : first.completion = second.completion

theorem ImapResponse.Alike.same {first second : ImapResponse} (halike : first.Alike second) :
    first.lines = second.lines ∧ first.bytes.length = second.bytes.length := by
  obtain ⟨left, last⟩ := first
  obtain ⟨right, _⟩ := second
  obtain ⟨hliterals, rfl⟩ := halike
  dsimp only at hliterals
  have hparts : left.map (fun part => announce part.1 part.2) =
        right.map (fun part => announce part.1 part.2) ∧
      (left.flatMap fun part => announce part.1 part.2 ++ crlf ++ part.2).length =
        (right.flatMap fun part => announce part.1 part.2 ++ crlf ++ part.2).length := by
    induction hliterals with
    | nil => exact ⟨rfl, rfl⟩
    | cons hpart _ ih =>
      simp only [List.map_cons, List.flatMap_cons, List.length_append, announce,
        hpart.1, hpart.2] at ih ⊢
      exact ⟨by rw [ih.1], by rw [ih.2]⟩
  unfold ImapResponse.lines ImapResponse.bytes
  rw [hparts.1, List.length_append, List.length_append, List.length_append,
    List.length_append, hparts.2]
  exact ⟨rfl, rfl⟩

theorem Exchange.Alike.same (halike : exchange.Alike other) (tag : Text) :
    other.lines tag = exchange.lines tag ∧
      (other.bytes tag).length = (exchange.bytes tag).length := by
  obtain ⟨left, completion⟩ := exchange
  obtain ⟨right, _⟩ := other
  obtain ⟨hresponses, rfl⟩ := halike
  dsimp only at hresponses
  have hsame : right.flatMap ImapResponse.lines = left.flatMap ImapResponse.lines ∧
      (right.flatMap ImapResponse.bytes).length = (left.flatMap ImapResponse.bytes).length := by
    induction hresponses with
    | nil => exact ⟨rfl, rfl⟩
    | cons hfirst _ ih =>
      simp only [List.flatMap_cons, List.length_append, hfirst.same.1,
        hfirst.same.2, ih.1, ih.2, and_self]
  simp only [Exchange.lines, Exchange.bytes, List.length_append, hsame.1, hsame.2, and_self]

end Contents

section Reading

variable {p : Platform} {parser : MailParser} {folder id body rest : Text} {seq : Nat}
  {select fetch : Exchange}

end Reading

end GotthMail
