/-
Drafts, and the message that is built from one.  Recipients are exact envelope
addresses, the blind ones stay out of the headers, and every field of the draft
goes into the message through an encoder of its own or through none.
-/
import GotthMail.Mailbox
import GotthMail.MimeText

namespace GotthMail

open Bytes Framing Wire MimeText

inductive DraftState where
  | unset
  | draft
  | failed
  | queuedForSubmission
  | submitted
  | sent
  | deliveryUncertain
deriving DecidableEq, Repr

structure Draft where
  id : Text
  from_ : Text
  to_ : Text
  subject : Text
  body : Text
  cc : List Text
  bcc : List Text
  attachments : List Attachment
  state : DraftState
  replyTo : Text
  forwardOf : Text
  signingFingerprint : Text
  messageID : Text
  /-- Nothing is the zero time. -/
  date : Option Time
deriving DecidableEq, Repr

structure MediaType where
  name : Text
  parameters : List (Text × Text)
deriving DecidableEq, Repr

/-- How addresses are written and lists of them read, the two formats of dates,
the parser of media types and the upper case of a string. -/
structure MailLibrary where
  addressString : MailAddress → Text
  parseAddressList : Text → Option (List MailAddress)
  formatDate : Time → Text
  parseDate : Text → Option Time
  formatInstant : Time → Text
  parseInstant : Text → Option Time
  parseMediaType : Text → Option MediaType
  upper : Text → Text

def isTokenDigit (byte : UInt8) : Bool :=
  decide (48 ≤ byte ∧ byte ≤ 57) || decide (65 ≤ byte ∧ byte ≤ 90) ||
    decide (97 ≤ byte ∧ byte ≤ 122) || byte == 45 || byte == 95

/-- What a message takes from the random source and the clock. -/
structure Seeds where
  boundary : Text
  token : Text
  now : Time
  boundary_length : boundary.length = 60
  boundary_hex : ∀ byte ∈ boundary, isLowerHex byte = true
  token_digits : ∀ byte ∈ token, isTokenDigit byte = true

def containsAny (bytes text : Text) : Bool := text.any bytes.contains

def validHeaderValue (value : Text) : Except Error Unit := do
  check (validUTF8 value && !containsAny [13, 10] value) "header injection rejected"
  check ((decode value).all fun rune => 0x20 ≤ rune.value && rune.value != 0x7F)
    "header control character rejected"

def validMIMEText (value : Text) : Except Error Unit := do
  check (validUTF8 value) "message body must be valid UTF-8"
  check ((decode value).all fun rune =>
      (0x20 ≤ rune.value || rune.value == 13 || rune.value == 10 ||
        rune.value == 9) && rune.value != 0x7F)
    "message body control character rejected"

def asciiAddress (address : Text) : Bool :=
  address != [] && address.all fun byte => decide (byte ≤ 0x7F)

section Recipients

variable (p : Platform)

def exactEnvelopeAddress (value : Text) : Except Error Text := do
  check (value != [] && trimSpace value == value && value.length ≤ 254) "invalid envelope address"
  let parsed ← require (p.parseAddress value) "invalid envelope address"
  check (parsed.name == [] && parsed.address == value && asciiAddress parsed.address)
    "invalid envelope address"
  return parsed.address

/-- Addresses in the order of their first occurrence. -/
def collectRecipients : List Text → List Text → Except Error (List Text)
  | _, [] => return []
  | seen, value :: rest => do
      let address ← require (exactEnvelopeAddress p value).toOption "invalid envelope recipient"
      check (asciiAddress address) "invalid envelope recipient"
      let key := p.lower address
      if key ∈ seen then collectRecipients seen rest
      else return address :: (← collectRecipients (key :: seen) rest)

def draftRecipients (d : Draft) : Except Error (List Text) := do
  check (d.cc.length + d.bcc.length + 1 ≤ 1000) "recipient limit exceeded"
  collectRecipients p [] (d.to_ :: d.cc ++ d.bcc)

end Recipients

/-- The checks on an identifier with its angle brackets. -/
def checkMessageID (id : Text) : Except Error Text := do
  check (!containsAny [13, 10] id && id.length ≤ 255 && id.head? == some 60 &&
    id.getLast? == some 62) "invalid message id"
  let inner := id.tail.dropLast
  check (inner.count atSign == 1 && !containsAny (ascii " <>\t") inner) "invalid message id"
  return id

/-- What follows the first at sign. -/
def domainPart (address : Text) : Text := (address.dropWhile (· != atSign)).tail

def messageID (p : Platform) (seeds : Seeds) (value sender : Text) :
    Except Error Text :=
  let id := trimSpace value
  if id = [] then
    let domain := domainPart sender
    checkMessageID (ascii "<gotth-mail-" ++ seeds.token ++ [atSign] ++
      (if domain = [] then ascii "localhost" else p.lower domain) ++ [62])
  else checkMessageID id

def octetStream : Text := ascii "application/octet-stream"

def replaceDots : Text → Text
  | [] => []
  | [byte] => [byte]
  | byte :: next :: rest =>
    if byte = dot ∧ next = dot then 95 :: replaceDots rest
    else byte :: replaceDots (next :: rest)

def safeFilename (name : Text) : Text :=
  let safe := replaceDots ((name.map fun byte =>
    if byte < 32 ∨ byte = 127 ∨ byte = 34 then 95 else byte).map fun byte =>
      if byte = 47 then 95 else byte)
  if trimSpace safe = [] then ascii "attachment" else safe

def maxAttachmentBytes : Int := 26214400

def joinAddresses : List Text → Text
  | [] => []
  | [address] => address
  | address :: rest => address ++ ascii ", " ++ joinAddresses rest

namespace MailLibrary

variable (lib : MailLibrary)

def safeContentType (value : Text) : Text :=
  let value := trimSpace value
  if value = [] ∨ containsAny (ascii "\r\n;") value then octetStream
  else
    match lib.parseMediaType value with
    | none => octetStream
    | some type => if type.name = [] then octetStream else type.name

def safeAttachment (a : Attachment) : Attachment where
  filename := safeFilename a.filename
  contentType :=
    if maxAttachmentBytes < a.size then octetStream
    else lib.safeContentType a.contentType
  size := a.size
  content := if maxAttachmentBytes < a.size then [] else a.content

def textPart (body : Text) : List (Text × Text) × Text :=
  ([(ascii "Content-Transfer-Encoding", ascii "quoted-printable"),
    (ascii "Content-Type", ascii "text/plain; charset=utf-8")], quotedPrintable body)

def disposition (filename : Text) : Text :=
  formatMediaType (ascii "attachment") (ascii "filename") filename

def attachmentPart (a : Attachment) : List (Text × Text) × Text :=
  let a := lib.safeAttachment a
  ([(ascii "Content-Disposition", disposition a.filename),
    (ascii "Content-Type", lib.safeContentType a.contentType)], a.content)

def mixedBody (boundary : Text) (d : Draft) : Text :=
  writeMultipart boundary (textPart d.body :: d.attachments.map lib.attachmentPart)

def mixedType (boundary : Text) : Text :=
  ascii "multipart/mixed; boundary=\"" ++ boundary ++ ascii "\""

def mixedHeader (seeds : Seeds) (d : Draft) (sender : MailAddress)
    (recipient : Text) (cc : List Text) (id : Text) : List (Text × Text) :=
  [(ascii "From", lib.addressString sender), (ascii "To", recipient)] ++
    (if cc = [] then [] else [(ascii "Cc", joinAddresses cc)]) ++
    [(ascii "Date", lib.formatDate (d.date.getD seeds.now)),
      (ascii "Message-ID", id), (ascii "Subject", qEncode d.subject),
      (ascii "MIME-Version", ascii "1.0"), (ascii "Content-Type", mixedType seeds.boundary)]

def buildMIME (p : Platform) (seeds : Seeds) (d : Draft) : Except Error Text := do
  validHeaderValue d.subject
  validMIMEText d.body
  let _ ← require (draftRecipients p d).toOption "invalid recipient"
  let sender ← require (p.parseAddress d.from_) "invalid from"
  let recipient ← require (exactEnvelopeAddress p d.to_).toOption "invalid recipient"
  let cc ← d.cc.mapM fun raw => require (exactEnvelopeAddress p raw).toOption "invalid cc recipient"
  check (asciiAddress sender.address && asciiAddress recipient)
    "SMTPUTF8 addresses are not supported"
  let id ← messageID p seeds d.messageID sender.address
  return writeHeader (lib.mixedHeader seeds d sender recipient cc id) ++
    lib.mixedBody seeds.boundary d

end MailLibrary

/-- What is relied on of the library: it writes addresses, dates and media types
in printable ASCII, and an address that it has read is on one line. -/
structure MailLibrary.Printable (lib : MailLibrary) (p : Platform) : Prop where
  parsed : ∀ raw parsed, p.parseAddress raw = some parsed → Unbroken parsed.address
  address : ∀ raw parsed, p.parseAddress raw = some parsed → asciiAddress parsed.address = true →
      ∀ byte ∈ lib.addressString parsed, isPrintable byte = true
  date : ∀ time, (∀ byte ∈ lib.formatDate time, isPrintable byte = true) ∧
    (lib.formatDate time).length ≤ 64
  mediaType : ∀ value type, lib.parseMediaType value = some type →
    ∀ byte ∈ type.name, isPrintable byte = true

section Built

variable {p : Platform} {lib : MailLibrary} {seeds : Seeds} {d : Draft}
  {value address id message : Text}

theorem toOption_ok_iff {α : Type} {result : Except Error α} {found : α} :
    result.toOption = some found ↔ result = .ok found := by
  cases result <;> simp [Except.toOption]

theorem exactEnvelopeAddress_ok (haddress : exactEnvelopeAddress p value = .ok address) :
    address = value ∧ address.length ≤ 254 ∧ asciiAddress address = true ∧
      ∃ parsed, p.parseAddress value = some parsed ∧ parsed.address = address := by
  simp only [exactEnvelopeAddress, bind_ok_iff, check_ok_iff, require_ok_iff,
    pure_ok_iff, Bool.and_eq_true, decide_eq_true_eq, beq_iff_eq] at haddress
  obtain ⟨_, ⟨_, hlength⟩, parsed, hparsed, _, ⟨⟨_, hsame⟩, hascii⟩, rfl⟩ := haddress
  exact ⟨hsame, hsame ▸ hlength, hascii, parsed, hparsed, rfl⟩

/-- The checks that a message has passed, and the message. -/
structure Builds (lib : MailLibrary) (p : Platform) (seeds : Seeds) (d : Draft)
    (sender : MailAddress) (id message : Text) : Prop where
  subject : validHeaderValue d.subject = .ok ()
  parsed : p.parseAddress d.from_ = some sender
  sender_ascii : asciiAddress sender.address = true
  recipient : exactEnvelopeAddress p d.to_ = .ok d.to_
  copies : ∀ raw ∈ d.cc, exactEnvelopeAddress p raw = .ok raw
  identifier : messageID p seeds d.messageID sender.address = .ok id
  written : message = writeHeader (lib.mixedHeader seeds d sender d.to_ d.cc id) ++
    lib.mixedBody seeds.boundary d

theorem mapM_exact {raws found : List Text}
    (hfound : raws.mapM (fun raw => require (exactEnvelopeAddress p raw).toOption
      "invalid cc recipient") = .ok found) :
    found = raws ∧ ∀ raw ∈ raws, exactEnvelopeAddress p raw = .ok raw := by
  induction raws generalizing found with
  | nil =>
    cases hfound
    exact ⟨rfl, nofun⟩
  | cons raw rest ih =>
    rw [List.mapM_cons] at hfound
    simp only [bind_ok_iff, require_ok_iff, toOption_ok_iff, pure_ok_iff] at hfound
    obtain ⟨address, haddress, others, hothers, rfl⟩ := hfound
    obtain ⟨rfl, hexact⟩ := ih hothers
    obtain ⟨rfl, _⟩ := exactEnvelopeAddress_ok haddress
    exact ⟨rfl, List.forall_mem_cons.mpr ⟨haddress, hexact⟩⟩

theorem builds_of_ok (hbuilt : lib.buildMIME p seeds d = .ok message) :
    ∃ sender id, Builds lib p seeds d sender id message := by
  simp only [MailLibrary.buildMIME, bind_ok_iff, require_ok_iff, toOption_ok_iff,
    check_ok_iff, pure_ok_iff, Bool.and_eq_true] at hbuilt
  obtain ⟨_, hsubject, _, _, _, _, sender, hsender, recipient, hrecipient, cc, hcc,
    _, ⟨hascii, _⟩, id, hid, rfl⟩ := hbuilt
  obtain ⟨rfl, hcopies⟩ := mapM_exact hcc
  obtain ⟨rfl, _⟩ := exactEnvelopeAddress_ok hrecipient
  exact ⟨sender, id, hsubject, hsender, hascii, hrecipient, hcopies, hid, rfl⟩

theorem checkMessageID_ok (hid : checkMessageID value = .ok id) :
    id = value ∧ Unbroken id ∧ id.length ≤ 255 := by
  simp only [checkMessageID, bind_ok_iff, check_ok_iff, pure_ok_iff,
    Bool.and_eq_true, decide_eq_true_eq, Bool.not_eq_true', containsAny, List.any_eq_false] at hid
  obtain ⟨_, ⟨⟨⟨hbreaks, hlength⟩, _⟩, _⟩, _, _, rfl⟩ := hid
  exact ⟨rfl, ⟨fun hmem => hbreaks 13 hmem (by decide),
    fun hmem => hbreaks 10 hmem (by decide)⟩, hlength⟩

theorem messageID_ok {sender : Text} (hid : messageID p seeds value sender = .ok id) :
    Unbroken id ∧ id.length ≤ 255 := by
  unfold messageID at hid
  dsimp only at hid
  split at hid
  · exact (checkMessageID_ok hid).2
  · exact (checkMessageID_ok hid).2

theorem asciiAddress_sevenBit (haddress : asciiAddress address = true) :
    ∀ byte ∈ address, byte < 128 := by
  simp only [asciiAddress, Bool.and_eq_true, List.all_eq_true, decide_eq_true_eq] at haddress
  exact fun byte hbyte => UInt8.lt_of_le_of_lt (haddress.2 byte hbyte) (by decide)

theorem safeContentType_printable (hlib : lib.Printable p) (value : Text) :
    ∀ byte ∈ lib.safeContentType value, isPrintable byte = true := by
  have hoctet : ∀ byte ∈ octetStream, isPrintable byte = true := List.all_eq_true.mp (by decide)
  unfold MailLibrary.safeContentType
  dsimp only
  split
  · exact hoctet
  · split
    · exact hoctet
    · rename_i type htype
      split
      · exact hoctet
      · exact hlib.mediaType _ type htype

/-- What a draft has to meet for its message to be transparent. -/
structure Mailable (lib : MailLibrary) (p : Platform) (seeds : Seeds) (d : Draft) :
    Prop where
  sender : ∀ sender, p.parseAddress d.from_ = some sender → (lib.addressString sender).length ≤ 992
  copies : (joinAddresses d.cc).length ≤ 994
  identifier : ∀ sender id, p.parseAddress d.from_ = some sender →
    messageID p seeds d.messageID sender.address = .ok id → ∀ byte ∈ id, byte < 128
  subject : (qEncode d.subject).length ≤ 989
  attachments : ∀ a ∈ d.attachments,
    (MailLibrary.disposition (lib.safeAttachment a).filename).length ≤ 977 ∧
      (lib.safeContentType (lib.safeAttachment a).contentType).length ≤ 984 ∧
      Transparent 998 (lib.safeAttachment a).content

theorem joinAddresses_mem {addresses : List Text} {byte : UInt8}
    (hbyte : byte ∈ joinAddresses addresses) :
    byte = 44 ∨ byte = 32 ∨ ∃ address ∈ addresses, byte ∈ address := by
  induction addresses using joinAddresses.induct with
  | case1 => simp [joinAddresses] at hbyte
  | case2 address => exact .inr (.inr ⟨address, by simp, hbyte⟩)
  | case3 address rest hrest ih =>
    rw [joinAddresses, List.mem_append, List.mem_append] at hbyte
    · rcases hbyte with (hbyte | hbyte) | hbyte
      · exact .inr (.inr ⟨address, by simp, hbyte⟩)
      · have hcomma : byte = 44 ∨ byte = 32 := by simpa [ascii] using hbyte
        exact hcomma.imp_right .inl
      · rcases ih hbyte with hcomma | hblank | ⟨other, hother, hmem⟩
        · exact .inl hcomma
        · exact .inr (.inl hblank)
        · exact .inr (.inr ⟨other, List.mem_cons_of_mem address hother, hmem⟩)
    · exact hrest

theorem Seeds.boundary_printable (seeds : Seeds) :
    ∀ byte ∈ seeds.boundary, isPrintable byte = true :=
  fun byte hbyte => isGraphic_printable (isLowerHex_graphic (seeds.boundary_hex byte hbyte))

theorem mixedType_transparent (seeds : Seeds) : Transparent 998
    (fieldLine (ascii "Content-Type", MailLibrary.mixedType seeds.boundary)) := by
  have hmarks : ∀ byte ∈ ascii "multipart/mixed; boundary=\"",
      isPrintable byte = true := List.all_eq_true.mp (by decide)
  have hquote : ∀ byte ∈ ascii "\"", isPrintable byte = true := List.all_eq_true.mp (by decide)
  have hwidth : (ascii "Content-Type").length = 12 ∧
      (ascii "multipart/mixed; boundary=\"").length = 27 ∧ (ascii "\"").length = 1 := by decide
  rw [transparent_printable_field (List.all_eq_true.mp (by decide)),
    MailLibrary.mixedType, List.length_append, List.length_append,
    seeds.boundary_length, hwidth.1, hwidth.2.1, hwidth.2.2]
  · decide
  · intro byte hbyte
    rw [MailLibrary.mixedType, List.mem_append, List.mem_append] at hbyte
    rcases hbyte with (hbyte | hbyte) | hbyte
    · exact hmarks byte hbyte
    · exact seeds.boundary_printable byte hbyte
    · exact hquote byte hbyte

theorem copies_transparent (hlib : lib.Printable p) {sender : MailAddress}
    (hbuilds : Builds lib p seeds d sender id message) :
    Transparent 998 (fieldLine (ascii "Cc", joinAddresses d.cc)) ↔
      (joinAddresses d.cc).length ≤ 994 := by
  have hcopy : ∀ raw ∈ d.cc, (∀ byte ∈ raw, byte < 128) ∧ Unbroken raw := by
    intro raw hraw
    obtain ⟨_, _, hascii, parsed, hparsed, rfl⟩ := exactEnvelopeAddress_ok (hbuilds.copies raw hraw)
    exact ⟨asciiAddress_sevenBit hascii, hlib.parsed _ parsed hparsed⟩
  have hjoined : ∀ byte ∈ joinAddresses d.cc, byte < 128 := by
    intro byte hbyte
    rcases joinAddresses_mem hbyte with rfl | rfl | ⟨raw, hraw, hmem⟩
    · decide
    · decide
    · exact (hcopy raw hraw).1 byte hmem
  have hline : Unbroken (joinAddresses d.cc) := by
    refine ⟨fun hmem => ?_, fun hmem => ?_⟩
    · rcases joinAddresses_mem hmem with hbyte | hbyte | ⟨raw, hraw, hmem⟩
      · exact absurd hbyte (by decide)
      · exact absurd hbyte (by decide)
      · exact (hcopy raw hraw).2.no_return hmem
    · rcases joinAddresses_mem hmem with hbyte | hbyte | ⟨raw, hraw, hmem⟩
      · exact absurd hbyte (by decide)
      · exact absurd hbyte (by decide)
      · exact (hcopy raw hraw).2.no_newline hmem
  have hwidth : (ascii "Cc").length = 2 := by decide
  rw [transparent_field (List.all_eq_true.mp (by decide)) hline, hwidth, and_iff_right hjoined]
  omega

theorem header_transparent (hlib : lib.Printable p) {sender : MailAddress}
    (hbuilds : Builds lib p seeds d sender id message) :
    (∀ field ∈ lib.mixedHeader seeds d sender d.to_ d.cc id, Transparent 998 (fieldLine field)) ↔
      (lib.addressString sender).length ≤ 992 ∧ (joinAddresses d.cc).length ≤ 994 ∧
        (∀ byte ∈ id, byte < 128) ∧ (qEncode d.subject).length ≤ 989 := by
  obtain ⟨_, hto, htoASCII, parsed, hparsed, hsame⟩ := exactEnvelopeAddress_ok hbuilds.recipient
  obtain ⟨hidLine, hidLength⟩ := messageID_ok hbuilds.identifier
  obtain ⟨hdate, hdateLength⟩ := hlib.date (d.date.getD seeds.now)
  have hfrom : Transparent 998 (fieldLine (ascii "From", lib.addressString sender)) ↔
        (lib.addressString sender).length ≤ 992 := by
    rw [transparent_printable_field (List.all_eq_true.mp (by decide))
      (hlib.address _ sender hbuilds.parsed hbuilds.sender_ascii)]
    have hwidth : (ascii "From").length = 4 := by decide
    omega
  have hrecipient : Transparent 998 (fieldLine (ascii "To", d.to_)) := by
    rw [transparent_field (List.all_eq_true.mp (by decide)) (hsame ▸ hlib.parsed _ parsed hparsed)]
    have hwidth : (ascii "To").length = 2 := by decide
    exact ⟨asciiAddress_sevenBit htoASCII, by omega⟩
  have hdateField : Transparent 998 (fieldLine (ascii "Date",
      lib.formatDate (d.date.getD seeds.now))) := by
    rw [transparent_printable_field (List.all_eq_true.mp (by decide)) hdate]
    have hwidth : (ascii "Date").length = 4 := by decide
    omega
  have hidentifier : Transparent 998 (fieldLine (ascii "Message-ID", id)) ↔
      ∀ byte ∈ id, byte < 128 := by
    rw [transparent_field (List.all_eq_true.mp (by decide)) hidLine]
    have hwidth : (ascii "Message-ID").length = 10 := by decide
    exact and_iff_left (by omega)
  have hsubject : Transparent 998 (fieldLine (ascii "Subject", qEncode d.subject)) ↔
        (qEncode d.subject).length ≤ 989 := by
    rw [transparent_printable_field (List.all_eq_true.mp (by decide))
      fun byte hbyte => isPrintable_qEncode hbyte]
    have hwidth : (ascii "Subject").length = 7 := by decide
    omega
  have hversion : Transparent 998 (fieldLine (ascii "MIME-Version", ascii "1.0")) := by
    rw [transparent_printable (List.all_eq_true.mp (by decide))]
    decide
  have hcopies := copies_transparent hlib hbuilds
  unfold MailLibrary.mixedHeader
  simp only [List.forall_mem_append, List.forall_mem_cons, List.not_mem_nil,
    false_imp_iff, implies_true, and_true, hfrom, hrecipient, hdateField, hidentifier,
    hsubject, hversion, mixedType_transparent, true_and]
  by_cases hcc : d.cc = []
  · simp [hcc, joinAddresses]
  · rw [if_neg hcc, List.forall_mem_singleton, hcopies, and_assoc]

theorem disposition_printable (filename : Text) :
    ∀ byte ∈ MailLibrary.disposition filename, isPrintable byte = true := by
  have hmarks : ∀ byte ∈ ascii "attachment" ++ ascii "; " ++ ascii "filename",
      isPrintable byte = true := List.all_eq_true.mp (by decide)
  intro byte hbyte
  exact (List.mem_append.mp hbyte).elim (hmarks byte) isPrintable_parameterValue

theorem body_transparent (hlib : lib.Printable p) :
    Transparent 998 (lib.mixedBody seeds.boundary d) ↔ ∀ a ∈ d.attachments,
        (MailLibrary.disposition (lib.safeAttachment a).filename).length ≤ 977 ∧
          (lib.safeContentType (lib.safeAttachment a).contentType).length ≤ 984 ∧
          Transparent 998 (lib.safeAttachment a).content := by
  have htext : (∀ field ∈ (MailLibrary.textPart d.body).1, Transparent 998 (fieldLine field)) ∧
        Transparent 998 (MailLibrary.textPart d.body).2 := by
    refine ⟨?_, (transparent_quotedPrintable d.body).mono (by decide)⟩
    simp only [MailLibrary.textPart, List.forall_mem_cons, List.not_mem_nil,
      false_imp_iff, implies_true, and_true]
    constructor
    · rw [transparent_printable (List.all_eq_true.mp (by decide))]
      decide
    · rw [transparent_printable (List.all_eq_true.mp (by decide))]
      decide
  have hattachment : ∀ a : Attachment,
      ((∀ field ∈ (lib.attachmentPart a).1, Transparent 998 (fieldLine field)) ∧
        Transparent 998 (lib.attachmentPart a).2) ↔
      (MailLibrary.disposition (lib.safeAttachment a).filename).length ≤ 977 ∧
        (lib.safeContentType (lib.safeAttachment a).contentType).length ≤ 984 ∧
        Transparent 998 (lib.safeAttachment a).content := by
    intro a
    have hwidth : (ascii "Content-Disposition").length = 19 ∧
        (ascii "Content-Type").length = 12 := by decide
    simp only [MailLibrary.attachmentPart, List.forall_mem_cons, List.not_mem_nil,
      false_imp_iff, implies_true, and_true]
    rw [transparent_printable_field (List.all_eq_true.mp (by decide)) (disposition_printable _),
      transparent_printable_field (List.all_eq_true.mp (by decide))
        (safeContentType_printable hlib _), hwidth.1, hwidth.2, and_assoc]
    refine and_congr ?_ (and_congr ?_ Iff.rfl)
    · omega
    · omega
  rw [MailLibrary.mixedBody, transparent_writeMultipart (by decide)
    seeds.boundary_printable (seeds.boundary_length ▸ by decide),
    List.forall_mem_cons, and_iff_right htext]
  simp only [List.forall_mem_map, hattachment]

end Built

/-- The message of a draft is transparent exactly when the draft is mailable.  A
transparent message is received as it was sent, whatever clean lines are added
to it. -/
theorem buildMIME_transparent_iff (p : Platform) (lib : MailLibrary)
    (hlib : lib.Printable p) (seeds : Seeds) (d : Draft) (message : Text)
    (hbuilt : lib.buildMIME p seeds d = .ok message) :
    (Transparent 998 message ↔ Mailable lib p seeds d) ∧ (Transparent 998 message → ∀ before,
        (∀ line ∈ crlfLines (before ++ lineEnd), line ∈ crlfLines message ∨ CleanLine 998 line) →
        received (dotBlock (before ++ lineEnd)) = some (before ++ lineEnd)) := by
  constructor
  · obtain ⟨sender, id, hbuilds⟩ := builds_of_ok hbuilt
    rw [hbuilds.written, transparent_writeHeader, header_transparent hlib hbuilds,
      body_transparent hlib]
    constructor
    · rintro ⟨⟨hsender, hcopies, hid, hsubject⟩, hattachments⟩
      refine ⟨fun other hother => ?_, hcopies, fun other found hother hfound => ?_,
        hsubject, hattachments⟩
      · cases hbuilds.parsed.symm.trans hother
        exact hsender
      · cases hbuilds.parsed.symm.trans hother
        cases hbuilds.identifier.symm.trans hfound
        exact hid
    · intro hmailable
      exact ⟨⟨hmailable.sender sender hbuilds.parsed, hmailable.copies,
        hmailable.identifier sender id hbuilds.parsed hbuilds.identifier,
        hmailable.subject⟩, hmailable.attachments⟩
  · intro htransparent before hlines
    refine received_dotBlock ((paired_iff _).mpr fun line hline => ?_)
    rcases hlines line hline with hold | hclean
    · exact (transparent_iff.mp htransparent line hold).unbroken
    · exact hclean.unbroken

def epochDate : Text := ascii "Thu, 01 Jan 1970 00:00:00 +0000"

def epochInstant : Text := ascii "1970-01-01T00:00:00Z"

/-- The library on plain addresses, on the beginning of time and on media types
without escapes. -/
def plainMail : MailLibrary where
  addressString parsed := [60] ++ parsed.address ++ [62]
  parseAddressList value :=
    (asciiPlatform.parseAddress (if value.head? = some 60 then value.tail.dropLast
      else value)).map fun parsed => [parsed]
  formatDate _ := epochDate
  parseDate value := if value = epochDate then some 0 else none
  formatInstant _ := epochInstant
  parseInstant value := if value = epochInstant then some 0 else none
  parseMediaType value :=
    let name := value.takeWhile (· != 59)
    if name.all isPrintable then
      match value.splitOn 34 with
      | [_, protocol, _, boundary, _] => some ⟨name, [(ascii "protocol", protocol),
          (ascii "micalg", ascii "pgp-sha256"), (ascii "boundary", boundary)]⟩
      | _ => some ⟨name, []⟩
    else none
  upper text := text.map fun byte => if 97 ≤ byte ∧ byte ≤ 122 then byte - 32 else byte

theorem isAtomByte_graphic {byte : UInt8} (hbyte : isAtomByte byte = true) :
    isGraphic byte = true := by
  have hspecial : ∀ byte ∈ ascii "!#$%&'*+-/=?^_~|", isGraphic byte = true :=
    List.all_eq_true.mp (by decide)
  simp only [isAtomByte, Bool.or_eq_true, decide_eq_true_eq, beq_iff_eq] at hbyte
  rcases hbyte with (((hbyte | hbyte) | hbyte) | rfl) | hbyte
  · simp only [isGraphic, decide_eq_true_eq, UInt8.le_iff_toNat_le, UInt8.reduceToNat] at hbyte ⊢
    omega
  · simp only [isGraphic, decide_eq_true_eq, UInt8.le_iff_toNat_le, UInt8.reduceToNat] at hbyte ⊢
    omega
  · simp only [isGraphic, decide_eq_true_eq, UInt8.le_iff_toNat_le, UInt8.reduceToNat] at hbyte ⊢
    omega
  · decide
  · exact hspecial byte (List.elem_iff.mp hbyte)

theorem asciiPlatform_parseAddress {raw : Text} {parsed : MailAddress}
    (hparsed : asciiPlatform.parseAddress raw = some parsed) :
    parsed.address = raw ∧ ∀ byte ∈ raw, isGraphic byte = true := by
  simp only [asciiPlatform] at hparsed
  split at hparsed
  · cases hparsed
  · rename_i index hindex
    split at hparsed
    · rename_i hchecks
      cases hparsed
      obtain ⟨_, hlocal, _, hhost⟩ := hchecks
      refine ⟨rfl, fun byte hbyte => ?_⟩
      rw [(lastIndexByte_split hindex).1, List.mem_append, List.mem_cons] at hbyte
      rcases hbyte with hbyte | rfl | hbyte
      · exact isAtomByte_graphic (List.all_eq_true.mp hlocal byte hbyte)
      · decide
      · exact isHostByte_graphic (List.all_eq_true.mp hhost byte hbyte)
    · cases hparsed

theorem plainMail_printable : plainMail.Printable asciiPlatform := by
  constructor
  · intro raw parsed hparsed
    obtain ⟨hsame, hgraphic⟩ := asciiPlatform_parseAddress hparsed
    rw [hsame]
    exact unbroken_of_printable fun byte hbyte => isGraphic_printable (hgraphic byte hbyte)
  · intro raw parsed hparsed _ byte hbyte
    obtain ⟨hsame, hgraphic⟩ := asciiPlatform_parseAddress hparsed
    simp only [plainMail, List.mem_append, List.mem_singleton, hsame] at hbyte
    rcases hbyte with (rfl | hbyte) | rfl
    · decide
    · exact isGraphic_printable (hgraphic byte hbyte)
    · decide
  · intro time
    have hdate : epochDate.all isPrintable = true ∧ epochDate.length ≤ 64 := by decide
    exact ⟨List.all_eq_true.mp hdate.1, hdate.2⟩
  · intro value type htype
    simp only [plainMail] at htype
    split at htype
    · rename_i hname
      split at htype
      · cases htype
        exact List.all_eq_true.mp hname
      · cases htype
        exact List.all_eq_true.mp hname
    · cases htype

def plainSeeds : Seeds where
  boundary := List.replicate 60 48
  token := ascii "t"
  now := 0
  boundary_length := by decide
  boundary_hex := List.all_eq_true.mp (by decide)
  token_digits := List.all_eq_true.mp (by decide)

def noteDraft (content : Text) : Draft where
  id := ascii "draft-1"
  from_ := ascii "a@example.test"
  to_ := ascii "b@example.test"
  subject := ascii "hi"
  body := ascii "hello"
  cc := []
  bcc := []
  attachments := [⟨ascii "notes.txt", ascii "text/plain", 3, content⟩]
  state := .draft
  replyTo := []
  forwardOf := []
  signingFingerprint := ascii "AB"
  messageID := ascii "<1@example.test>"
  date := none

def noteMessage (content : Text) : Text :=
  ((plainMail.buildMIME asciiPlatform plainSeeds (noteDraft content)).toOption).getD []

/-- An attachment of one word passes. -/
theorem buildMIME_transparent_note : Transparent 998 (noteMessage (ascii "abc")) := by
  have hbuilt : plainMail.buildMIME asciiPlatform plainSeeds
        (noteDraft (ascii "abc")) = .ok (noteMessage (ascii "abc")) ∧
      asciiPlatform.parseAddress (ascii "a@example.test") = some ⟨[], ascii "a@example.test"⟩ ∧
      messageID asciiPlatform plainSeeds (ascii "<1@example.test>")
        (ascii "a@example.test") = .ok (ascii "<1@example.test>") := by
    decide +kernel
  refine (buildMIME_transparent_iff asciiPlatform plainMail plainMail_printable
    plainSeeds (noteDraft (ascii "abc")) _ hbuilt.1).1.mpr ⟨?_, ?_, ?_, ?_, ?_⟩
  · intro sender hsender
    cases hbuilt.2.1.symm.trans hsender
    decide
  · decide
  · intro sender id hsender hid
    cases hbuilt.2.1.symm.trans hsender
    cases hbuilt.2.2.symm.trans hid
    exact fun byte hbyte => isGraphic_ascii (List.all_eq_true.mp
      (show (ascii "<1@example.test>").all isGraphic = true by decide) byte hbyte)
  · decide
  · intro a ha
    cases List.mem_singleton.mp ha
    refine ⟨by decide +kernel, by decide +kernel, ?_⟩
    have hcontent : (plainMail.safeAttachment ⟨ascii "notes.txt", ascii "text/plain",
        3, ascii "abc"⟩).content = ascii "abc" := rfl
    rw [hcontent, transparent_printable (List.all_eq_true.mp (by decide))]
    decide

/-- The newline of a text file does not, and is not received as it was sent. -/
theorem newline_attachment_changes :
    plainMail.buildMIME asciiPlatform plainSeeds (noteDraft (ascii "a\nb")) =
        .ok (noteMessage (ascii "a\nb")) ∧
      ¬Transparent 998 (noteMessage (ascii "a\nb")) ∧
      received (dotBlock (noteMessage (ascii "a\nb"))) ≠ some (noteMessage (ascii "a\nb")) := by
  have hfacts : plainMail.buildMIME asciiPlatform plainSeeds
        (noteDraft (ascii "a\nb")) = .ok (noteMessage (ascii "a\nb")) ∧
      (crlfLines (noteMessage (ascii "a\nb"))).any (·.contains 10) = true ∧
      received (dotBlock (noteMessage (ascii "a\nb"))) ≠ some (noteMessage (ascii "a\nb")) := by
    decide +kernel
  refine ⟨hfacts.1, fun htransparent => ?_, hfacts.2.2⟩
  obtain ⟨line, hline, hnewline⟩ := List.any_eq_true.mp hfacts.2.1
  exact (transparent_iff.mp htransparent line hline).unbroken.no_newline
    (List.contains_iff_mem.mp hnewline)

end GotthMail
