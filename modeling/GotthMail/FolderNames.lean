/-
Folder names on the IMAP connection: how a name is quoted in a command, and how
it is read back from the last word of a LIST response.
-/
import GotthMail.Mailbox

namespace GotthMail

open Bytes

/-- What stands between the last byte and the quote that opens it: the nearest
one before it without a backslash.  The bytes still to be looked at come in
reverse. -/
def quotedName (name : Text) : Text → Option Text
  | [] => none
  | byte :: before =>
    if byte = 34 ∧ before.head? ≠ some 92 then some name
    else quotedName (byte :: name) before

def trimQuotes (word : Text) : Text := (word.dropWhile (· == 34)).rdropWhile (· == 34)

def imapMailboxName (response : Text) : Text :=
  let trimmed := trimSpace response
  match if trimmed.getLast? = some 34 then
      quotedName [] trimmed.dropLast.reverse else none with
  | some name => replaceAll (replaceAll name [92, 34] [34]) [92, 92] [92]
  | none => trimQuotes ((fields trimmed).getLast?.getD [])

def folderNames (lines : List Text) : Except Error (List Text) := do
  let names := ((lines.filter (ascii "* LIST ").isPrefixOf).map
    imapMailboxName).filter fun name => name != [] && name != [dot]
  check (decide (names.length ≤ 256)) "imap folder limit exceeded"
  return names

def hasFolder (p : Platform) (folders : List Text) (want : Text) : Bool :=
  folders.any fun folder => p.equalFold folder want

def statusCommand (folder : Text) : Text :=
  ascii "STATUS " ++ imapQuote folder ++ ascii " (UNSEEN)"

/-- The commands that follow the answer to a LIST, one for each folder. -/
def listFoldersDetailed (p : Platform) (lines : List Text) : Except Error (List Text) := do
  let names ← folderNames lines
  let folders := if hasFolder p names (ascii "INBOX") then names else names ++ [ascii "INBOX"]
  return folders.map statusCommand

/-- The command with which every operation on the messages of a folder starts. -/
def selectFolder (folder : Text) : Except Error Text := do
  validateIMAPMailbox folder
  return ascii "SELECT " ++ imapQuote folder

/-- The commands with which a message is moved, each sent when the server has
accepted the one before. -/
def moveMessage (folder id destination : Text) : Except Error (List Text) := do
  check (validIMAPUID id) "valid imap message required"
  validateIMAPMailbox folder
  validateIMAPMailbox destination
  return [ascii "SELECT " ++ imapQuote folder,
    ascii "UID MOVE " ++ id ++ [32] ++ imapQuote destination]

/-- The text inside a quoted string: a quote or a backslash only after a
backslash. -/
inductive Escaped : Text → Prop where
  | nil : Escaped []
  | plain {byte : UInt8} {rest : Text} (hbyte : ¬(byte = 92 ∨ byte = 34))
      (hrest : Escaped rest) : Escaped (byte :: rest)
  | pair {byte : UInt8} {rest : Text} (hbyte : byte = 92 ∨ byte = 34)
      (hrest : Escaped rest) : Escaped (92 :: byte :: rest)

/-- A server reads on to the quote that closes the string: the value, and the
rest of the command. -/
def readEscaped : Text → Option (Text × Text)
  | [] => none
  | 34 :: rest => some ([], rest)
  | 92 :: byte :: rest =>
    if byte = 92 ∨ byte = 34 then
      (readEscaped rest).map fun (value, after) => (byte :: value, after)
    else none
  | byte :: rest =>
    (readEscaped rest).map fun (value, after) => (byte :: value, after)

def readQuoted : Text → Option (Text × Text)
  | 34 :: rest => readEscaped rest
  | _ => none

/-- The inside of a quoted name. -/
def imapEscape (name : Text) : Text :=
  name.flatMap fun byte => if byte = 92 ∨ byte = 34 then [92, byte] else [byte]

theorem replaceAll_byte (byte : UInt8) (new text : Text) :
    replaceAll text [byte] new =
      text.flatMap fun other => if byte = other then new else [other] := by
  rw [replaceAll]
  induction text with
  | nil => rfl
  | cons other rest ih =>
    rw [replaceFrom, List.flatMap_cons, ← ih]
    by_cases hother : byte = other
    · simp [hother]
    · simp [hother]

/-- The four replacements, byte by byte. -/
theorem imapQuote_bytes (value : Text) :
    imapQuote value = 34 :: (value.flatMap fun byte =>
      if byte = 92 ∨ byte = 34 then [92, byte]
      else if byte = 13 ∨ byte = 10 then [] else [byte]) ++ [34] := by
  simp only [imapQuote, replaceAll_byte, List.flatMap_assoc]
  congr 2
  apply List.flatMap_congr
  intro byte _
  by_cases hslash : byte = 92
  · subst hslash
    rfl
  by_cases hquote : byte = 34
  · subst hquote
    rfl
  by_cases hreturn : byte = 13
  · subst hreturn
    rfl
  by_cases hfeed : byte = 10
  · subst hfeed
    rfl
  simp [hslash, hquote, hreturn, hfeed, Ne.symm hslash, Ne.symm hquote,
    Ne.symm hreturn, Ne.symm hfeed]

theorem imapQuote_eq {name : Text} (hreturn : 13 ∉ name) (hfeed : 10 ∉ name) :
    imapQuote name = 34 :: imapEscape name ++ [34] := by
  rw [imapQuote_bytes, imapEscape]
  congr 2
  apply List.flatMap_congr
  intro byte hbyte
  have hline : ¬(byte = 13 ∨ byte = 10) := by
    rintro (rfl | rfl)
    · exact hreturn hbyte
    · exact hfeed hbyte
  rw [if_neg hline]

theorem imapEscape_cons (byte : UInt8) (rest : Text) :
    imapEscape (byte :: rest) =
      (if byte = 92 ∨ byte = 34 then [92, byte] else [byte]) ++ imapEscape rest := by
  rw [imapEscape, List.flatMap_cons, imapEscape]

theorem escaped_imapEscape (name : Text) : Escaped (imapEscape name) := by
  induction name with
  | nil => exact .nil
  | cons byte rest ih =>
    rw [imapEscape_cons]
    split
    · next hbyte => exact .pair hbyte ih
    · next hbyte => exact .plain hbyte ih

theorem readEscaped_imapEscape (name rest : Text) :
    readEscaped (imapEscape name ++ 34 :: rest) = some (name, rest) := by
  induction name with
  | nil => rfl
  | cons byte more ih =>
    rw [imapEscape_cons]
    split
    · next hbyte =>
        simp only [List.cons_append, List.nil_append]
        rw [readEscaped, if_pos hbyte, ih]
        rfl
    · next hbyte =>
        obtain ⟨hslash, hquote⟩ := not_or.mp hbyte
        simp only [List.cons_append, List.nil_append]
        rw [readEscaped.eq_4 _ _ (by simpa using hquote)
          (by intro _ _ hsame; exact absurd hsame hslash), ih]
        rfl

/-- Undoing the quotes leaves the backslashes doubled. -/
def doubled (name : Text) : Text := name.flatMap fun byte => if byte = 92 then [92, 92] else [byte]

theorem imapEscape_head (name : Text) : (imapEscape name).head? ≠ some 34 := by
  cases name with
  | nil => simp [imapEscape]
  | cons byte rest =>
    rw [imapEscape_cons]
    split
    · simp
    · next hbyte => simpa using (not_or.mp hbyte).2

theorem replace_quotes (name : Text) :
    replaceAll (imapEscape name) [92, 34] [34] = doubled name := by
  rw [replaceAll]
  induction name with
  | nil => rfl
  | cons byte rest ih =>
    rw [imapEscape_cons, doubled, List.flatMap_cons, ← doubled, ← ih]
    by_cases hquote : byte = 34
    · subst hquote
      rfl
    · by_cases hslash : byte = 92
      · -- the second backslash of a pair never stands before a quote
        subst hslash
        have hhead := imapEscape_head rest
        cases hrest : imapEscape rest with
        | nil => rfl
        | cons first others =>
          rw [hrest] at hhead
          simpa [replaceFrom] using Ne.symm (by simpa using hhead)
      · simp [replaceFrom, hquote, hslash, Ne.symm hslash]

theorem replace_backslashes (name : Text) : replaceAll (doubled name) [92, 92] [92] = name := by
  rw [replaceAll]
  induction name with
  | nil => rfl
  | cons byte rest ih =>
    rw [doubled, List.flatMap_cons, ← doubled]
    by_cases hslash : byte = 92
    · subst hslash
      simpa [replaceFrom] using ih
    · simpa [replaceFrom, hslash, Ne.symm hslash] using ih

/-- The scan for the opening quote passes over an escaped name. -/
theorem quotedName_imapEscape (name found before : Text) :
    quotedName found ((imapEscape name).reverse ++ before) =
      quotedName (imapEscape name ++ found) before := by
  induction name generalizing before with
  | nil => rfl
  | cons byte rest ih =>
    rw [imapEscape_cons, List.reverse_append, List.append_assoc, ih, List.append_assoc]
    split
    · simp [quotedName]
    · next hbyte => simp [quotedName, (not_or.mp hbyte).2]

/-- Trimming a response keeps the blank before its last word, unless nothing but
blanks comes before it. -/
theorem trimSpace_word (start : Text) {word : Text} {first last : Rune}
    (hhead : (decode word).head? = some first) (hfirst : isSpace first = false)
    (hlast : (decode word).getLast? = some last) (hend : isSpace last = false) :
    ∃ before, (before = [] ∨ ∃ others, before = others ++ [32]) ∧
      trimSpace (start ++ 32 :: word) = before ++ word := by
  have hkeep (runes : List Rune) :
      (runes ++ decode word).rdropWhile isSpace = runes ++ decode word := by
    obtain ⟨others, hothers⟩ := List.getLast?_eq_some_iff.mp hlast
    rw [hothers, ← List.append_assoc, List.rdropWhile_concat_neg _ _ _ (by simp [hend])]
  have hdecode : decode (start ++ 32 :: word) =
      (decode start ++ [Rune.ofByte 32]) ++ decode word := by
    rw [decode_append_ascii start word (by decide), List.append_assoc, List.singleton_append]
  rw [trimSpace, trimRunes, hdecode, List.dropWhile_append]
  split
  · obtain ⟨others, hothers⟩ := List.head?_eq_some_iff.mp hhead
    have hdrop : (decode word).dropWhile isSpace = decode word := by
      rw [hothers, List.dropWhile_cons_of_neg (by simp [hfirst])]
    have htrim := hkeep []
    rw [List.nil_append] at htrim
    exact ⟨[], .inl rfl, by rw [hdrop, htrim, flatMap_bytes_decode, List.nil_append]⟩
  · next hkept =>
      rw [hkeep]
      refine ⟨((decode start ++ [Rune.ofByte 32]).dropWhile isSpace).flatMap
        Rune.bytes, .inr ?_, by rw [List.flatMap_append, flatMap_bytes_decode]⟩
      obtain ⟨spaces, hspaces⟩ := List.dropWhile_suffix
        (l := decode start ++ [Rune.ofByte 32]) isSpace
      generalize (decode start ++ [Rune.ofByte 32]).dropWhile isSpace = kept at hkept hspaces ⊢
      have hlast := congrArg List.getLast? hspaces
      rw [List.getLast?_append, List.getLast?_concat] at hlast
      cases hend : kept.getLast? with
      | none => simp [List.getLast?_eq_none_iff.mp hend] at hkept
      | some rune =>
        rw [hend, Option.some_or, Option.some.injEq] at hlast
        obtain ⟨more, rfl⟩ := List.getLast?_eq_some_iff.mp hend
        exact ⟨more.flatMap Rune.bytes, by simp [hlast, Rune.ofByte]⟩

theorem imapMailboxName_quoted (start name : Text) :
    imapMailboxName (start ++ 32 :: (34 :: imapEscape name ++ [34])) = name := by
  have hquote : isSpace (Rune.ofByte 34) = false := by decide
  have hhead : (decode (34 :: imapEscape name ++ [34])).head? = some (Rune.ofByte 34) := by
    rw [List.cons_append, decode_cons_ascii (by decide), List.head?_cons]
  have hlast : (decode (34 :: imapEscape name ++ [34])).getLast? = some (Rune.ofByte 34) := by
    rw [decode_append_ascii _ [] (by decide)]
    simp [List.getLast?_cons]
  obtain ⟨before, hbefore, htrim⟩ := trimSpace_word start hhead hquote hlast hquote
  have hend : before.reverse.head? ≠ some 92 := by
    rcases hbefore with rfl | ⟨others, rfl⟩ <;> simp
  have hscan : quotedName [] (before ++ (34 :: imapEscape name ++ [34])).dropLast.reverse
      = some (imapEscape name) := by
    rw [← List.append_assoc, List.dropLast_concat, List.reverse_append, List.reverse_cons,
      List.append_assoc, quotedName_imapEscape, List.append_nil,
      List.singleton_append, quotedName, if_pos ⟨rfl, hend⟩]
  have hclosed : (before ++ (34 :: imapEscape name ++ [34])).getLast? = some 34 := by
    rw [← List.append_assoc, List.getLast?_concat]
  rw [imapMailboxName, htrim]
  simp only [hscan, replace_quotes, replace_backslashes, hclosed, if_true]

/-- The bytes of an atom: graphic, and none that starts another form or is a wildcard. -/
def isListAtomByte (byte : UInt8) : Bool :=
  isGraphic byte && !(ascii "()\x7b%*\"\\").elem byte

theorem stretches_split {space : Rune} (hspace : isSpace space = true) (runes rest : List Rune) :
    stretches (runes ++ space :: rest) = stretches runes ++ stretches rest := by
  have hsome (runes : List Rune) : ∃ word others, stretches runes = word :: others := by
    cases runes with
    | nil => exact ⟨_, _, rfl⟩
    | cons rune more =>
      rw [stretches]
      split
      · exact ⟨_, _, rfl⟩
      · split <;> exact ⟨_, _, rfl⟩
  induction runes with
  | nil => simp [stretches, hspace]
  | cons rune more ih =>
    rw [List.cons_append, stretches, stretches, ih]
    obtain ⟨word, others, hmore⟩ := hsome more
    by_cases hrune : isSpace rune = true
    · simp [hrune]
    · simp [hrune, hmore]

/-- A word without blanks is the last field of what it ends. -/
theorem fields_last {before word : Text} (hbefore : before = [] ∨ ∃ others, before = others ++ [32])
    (hword : word ≠ []) (hgraphic : ∀ byte ∈ word, isGraphic byte = true) :
    (fields (before ++ word)).getLast? = some word := by
  have hrunes := decode_graphic hgraphic
  have halone : stretches (decode word) = [word] := by
    -- the word and a blank after it are two stretches, the second one empty
    have hblank : isSpace (Rune.ofByte 32) = true := by decide
    have hsplit := stretches_append hrunes hblank []
    rw [stretches_split hblank, flatMap_bytes_decode] at hsplit
    exact (List.append_left_inj [[]]).mp hsplit
  rcases hbefore with rfl | ⟨others, rfl⟩
  · simp [fields, halone, hword]
  · rw [List.append_assoc, List.singleton_append, fields, decode_append_ascii others word
      (by decide), stretches_split (by decide), List.filter_append, halone]
    simp [hword]

theorem imapMailboxName_atom (start : Text) {name : Text} (hname : name ≠ [])
    (hatom : ∀ byte ∈ name, isListAtomByte byte = true) :
    imapMailboxName (start ++ 32 :: name) = name := by
  have hgraphic : ∀ byte ∈ name, isGraphic byte = true := fun byte hbyte =>
    (Bool.and_eq_true_iff.mp (hatom byte hbyte)).1
  have hquote : ∀ byte ∈ name, (byte == 34) = false := by
    intro byte hbyte
    refine beq_eq_false_iff_ne.mpr ?_
    rintro rfl
    exact absurd (hatom _ hbyte) (by decide)
  have hdecoded : decode name ≠ [] := by
    intro hnil
    rw [← flatMap_bytes_decode name, hnil] at hname
    exact hname rfl
  have hrunes := decode_graphic hgraphic
  obtain ⟨before, hbefore, htrim⟩ := trimSpace_word start
    (List.head?_eq_some_head hdecoded) (hrunes _ (List.head_mem hdecoded))
    (List.getLast?_eq_some_getLast hdecoded) (hrunes _ (List.getLast_mem hdecoded))
  have hopen : (before ++ name).getLast? ≠ some 34 := by
    rw [List.getLast?_append_of_ne_nil _ hname, List.getLast?_eq_some_getLast hname]
    intro hlast
    exact absurd (hquote _ (List.getLast_mem hname)) (by simp [Option.some.inj hlast])
  have htrimmed : trimQuotes name = name := by
    rw [trimQuotes, List.dropWhile_eq_self_iff.mpr, List.rdropWhile_eq_self_iff]
    · intro hne
      simp [hquote _ (List.getLast_mem hne)]
    · intro hpos
      simp [hquote _ (List.getElem_mem hpos)]
  rw [imapMailboxName, htrim]
  simp only [hopen, if_false, fields_last hbefore hname hgraphic, Option.getD_some, htrimmed]

/-- The name of a mailbox in a line, sent as a quoted string or as an atom. -/
inductive Sent : Text → Text → Prop where
  | quoted (start : Text) {name : Text} (hreturn : 13 ∉ name) (hfeed : 10 ∉ name) :
      Sent (start ++ 32 :: imapQuote name) name
  | atom (start : Text) {name : Text} (hname : name ≠ [])
      (hatom : ∀ byte ∈ name, isListAtomByte byte = true) : Sent (start ++ 32 :: name) name

/-- What can be done with the name of a folder. -/
structure Nameable (name : Text) : Prop where
  quoted : ∃ inside, Escaped inside ∧ imapQuote name = 34 :: inside ++ [34]
  read : ∀ rest, readQuoted (imapQuote name ++ rest) = some (name, rest)
  returned : ∀ start, imapMailboxName (start ++ 32 :: imapQuote name) = name
  selected : validateIMAPMailbox name = .ok () →
    selectFolder name = .ok (ascii "SELECT " ++ imapQuote name)
  moved : validateIMAPMailbox name = .ok () → ∀ id other,
    validIMAPUID id = true → validateIMAPMailbox other = .ok () →
      moveMessage name id other = .ok [ascii "SELECT " ++ imapQuote name,
        ascii "UID MOVE " ++ id ++ [32] ++ imapQuote other] ∧
      moveMessage other id name = .ok [ascii "SELECT " ++ imapQuote other,
        ascii "UID MOVE " ++ id ++ [32] ++ imapQuote name]

theorem moveMessage_ok {folder id destination : Text}
    (hid : validIMAPUID id = true) (hfolder : validateIMAPMailbox folder = .ok ())
    (hdestination : validateIMAPMailbox destination = .ok ()) :
    moveMessage folder id destination = .ok [ascii "SELECT " ++ imapQuote folder,
      ascii "UID MOVE " ++ id ++ [32] ++ imapQuote destination] := by
  simp only [moveMessage, bind_ok_iff, check_ok_iff, pure_ok_iff]
  exact ⟨(), hid, (), hfolder, (), hdestination, trivial⟩

theorem nameable {name : Text} (hreturn : 13 ∉ name) (hfeed : 10 ∉ name) : Nameable name := by
  have hquote := imapQuote_eq hreturn hfeed
  refine ⟨⟨_, escaped_imapEscape name, hquote⟩, ?_, ?_, ?_, ?_⟩
  · intro rest
    rw [hquote, List.append_assoc, List.cons_append]
    exact readEscaped_imapEscape name rest
  · intro start
    rw [hquote]
    exact imapMailboxName_quoted start name
  · intro hvalid
    simp only [selectFolder, bind_ok_iff, pure_ok_iff]
    exact ⟨(), hvalid, trivial⟩
  · intro hvalid id other hid hother
    exact ⟨moveMessage_ok hid hvalid hother, moveMessage_ok hid hother hvalid⟩

theorem Sent.name_eq {line name : Text} (hsent : Sent line name) :
    imapMailboxName line = name := by
  cases hsent with
  | quoted start hreturn hfeed => exact (nameable hreturn hfeed).returned start
  | atom start hname hatom => exact imapMailboxName_atom start hname hatom

theorem Sent.nameable {line name : Text} (hsent : Sent line name) : Nameable name := by
  cases hsent with
  | quoted start hreturn hfeed => exact GotthMail.nameable hreturn hfeed
  | atom start hname hatom =>
    refine GotthMail.nameable (fun hmem => ?_) fun hmem => ?_
    · exact absurd (hatom _ hmem) (by decide)
    · exact absurd (hatom _ hmem) (by decide)

/-- The folders among the names that a server sends. -/
def listed (names : List Text) : List Text := names.filter fun name => name != [] && name != [dot]

theorem folderNames_sent {lines names : List Text}
    (hsent : List.Forall₂ Sent (lines.filter (ascii "* LIST ").isPrefixOf) names) :
    folderNames lines = if (listed names).length ≤ 256 then .ok (listed names)
      else .error (.text "imap folder limit exceeded") := by
  have hnames : (lines.filter (ascii "* LIST ").isPrefixOf).map imapMailboxName = names := by
    have heq := hsent.imp fun _ _ hline => hline.name_eq
    rwa [← List.forall₂_map_left_iff, List.forall₂_eq_eq_eq] at heq
  rw [folderNames, hnames, ← listed]
  by_cases hlimit : (listed names).length ≤ 256
  · simp [hlimit, check]
  · simp [hlimit, check]

/-- A name without line ends is quoted as one string, is read back from a response that
ends in it, and denotes the same folder in every command.  A response that sends its
mailboxes as atoms and quoted strings is listed name by name, and each name is asked for
and can be used as it is. -/
theorem folder_nameable :
    (∀ name : Text, 13 ∉ name → 10 ∉ name → Nameable name) ∧
    ∀ lines names : List Text,
      List.Forall₂ Sent (lines.filter (ascii "* LIST ").isPrefixOf) names →
      (folderNames lines = if (listed names).length ≤ 256 then .ok (listed names)
        else .error (.text "imap folder limit exceeded")) ∧
      (∀ name ∈ listed names, Nameable name) ∧
      ∀ p : Platform, (listed names).length ≤ 256 →
        ∃ more, listFoldersDetailed p lines = .ok ((listed names ++ more).map statusCommand) ∧
          (more = [] ∨ more = [ascii "INBOX"]) := by
  refine ⟨fun name hreturn hfeed => nameable hreturn hfeed, fun lines names hsent => ?_⟩
  have hnames := folderNames_sent hsent
  refine ⟨hnames, fun name hname => ?_, fun p hlimit => ?_⟩
  · have hmem := List.mem_of_mem_filter hname
    obtain ⟨index, hindex, rfl⟩ := List.getElem_of_mem hmem
    exact (hsent.get (hsent.length_eq ▸ hindex) hindex).nameable
  · rw [if_pos hlimit] at hnames
    by_cases hinbox : hasFolder p (listed names) (ascii "INBOX") = true
    · exact ⟨[], by simp [listFoldersDetailed, hnames, hinbox], .inl rfl⟩
    · exact ⟨[ascii "INBOX"], by simp [listFoldersDetailed, hnames, hinbox], .inr rfl⟩

/-- A response with a quoted name, an atom and the root of the hierarchy. -/
theorem folder_nameable_listed :
    folderNames [ascii "* LIST () \"/\" " ++ imapQuote (ascii "a\\\"b"),
        ascii "* LIST () \"/\" .", ascii "* LIST () \"/\" Sent", ascii "A0002 OK done"] =
      .ok [ascii "a\\\"b", ascii "Sent"] ∧
    Nameable (ascii "a\\\"b") := by
  have hsent := folder_nameable.2 [ascii "* LIST () \"/\" " ++ imapQuote (ascii "a\\\"b"),
      ascii "* LIST () \"/\" .", ascii "* LIST () \"/\" Sent", ascii "A0002 OK done"]
    [ascii "a\\\"b", ascii ".", ascii "Sent"]
    (.cons (.quoted (ascii "* LIST () \"/\"") (by decide) (by decide))
      (.cons (.atom (ascii "* LIST () \"/\"") (by decide) (by decide +kernel))
        (.cons (.atom (ascii "* LIST () \"/\"") (by decide) (by decide +kernel)) .nil)))
  exact ⟨hsent.1, hsent.2.1 _ (by decide)⟩

/-- A folder whose name is a blank is listed, and no message can be moved there; a mailbox
that is sent as a literal is listed under the announcement of the literal. -/
theorem blank_folder_listed :
    folderNames [ascii "* LIST () \"/\" " ++ imapQuote [32]] = .ok [[32]] ∧
      moveMessage (ascii "INBOX") (ascii "1") [32] = .error (.text "invalid imap mailbox") ∧
      folderNames [ascii "* LIST () \"/\" \x7b5\x7d", ascii "inbox"] =
        .ok [ascii "\x7b5\x7d"] ∧
      validateIMAPMailbox (ascii "\x7b5\x7d") = .ok () := by
  decide +kernel

end GotthMail
