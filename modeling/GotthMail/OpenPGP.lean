/-
Signed messages.  The signer copies a few headers of a message, puts assertions
about them into the header of the signed entity and wraps entity and signature
into one multipart; the verifier cuts the entity out again with a scanner of its
own and compares the assertions with the headers outside.
-/
import GotthMail.Headers
import GotthMail.Mime

namespace GotthMail

open Bytes Framing Sha256 Wire MimeText Headers

structure Identity where
  address : Text
  fingerprint : Text
deriving DecidableEq, Repr

structure SignatureStatus where
  fingerprint : Text
  identity : Text
  signed : Bool
deriving DecidableEq, Repr

/-- The signing key: its fingerprint, and the armored signature of some data. -/
structure SigningKey where
  fingerprint : Text
  armoredDetachSign : Text → Except Error Text

/-- The public keys: the packet of a canonical armor block that uses the required
hash, and the fingerprint of the key that has signed some data with a packet. -/
structure KeyRing where
  openArmor : Text → Except Error Text
  checkDetachedSignature : Text → Text → Except Error Text

def maxSignedBytes : Nat := 262144 + 1048576 + 26214400 * 4

def maxSignatureBytes : Nat := 1048576

/-- The bytes of a name as characters. -/
def nameString (name : Text) : String := String.ofList (name.map fun byte => Char.ofNat byte.toNat)

def uniqueHeaderValue (header : Header) (field : String) (required : Bool) :
    Except Error Text :=
  match values header (ascii field) with
  | [] =>
    if required then .error (.text ("missing " ++ field.toLower ++ " header"))
    else .ok []
  | [value] => .ok value
  | _ => .error (.text ("ambiguous " ++ field.toLower ++ " header"))

/-- A whole entity: its header on canonical lines, and what follows it. -/
def readCanonicalMIMEEntity (raw : Text) : Except Error (Header × Text) := do
  let cut ← require (cutHeader raw) "MIME entity lacks canonical header separator"
  check ((crlfLines cut.1).all fun line => !line.contains 13 && !line.contains 10)
    "MIME headers use non-canonical line endings"
  let header ← require (readHeader (crlfLines cut.1)) "malformed header"
  return (header, cut.2)

structure AuthoritativeBinding where
  from_ : Text
  sender : Text
  replyTo : Text
  messageID : Text
  subjectSHA256 : Text
  fingerprint : Text
  date : Time
deriving DecidableEq, Repr

section Headers

variable (p : Platform) (lib : MailLibrary)

/-- A field that decides how a message is read. -/
def isSecurityField (name : Text) : Bool :=
  (ascii "content-").isPrefixOf (p.lower name) || (ascii "x-gotth-mail-").isPrefixOf (p.lower name)

def rejectAmbiguousSecurityHeaders (header : Header) : Except Error Unit :=
  match header.find? fun field => isSecurityField p field.1 &&
      (header.filter fun other => other.1 == field.1).length != 1 with
  | some field =>
    .error (.text ("ambiguous " ++ nameString (p.lower field.1) ++ " header"))
  | none => .ok ()

def rejectAmbiguousHeaders (header : Header) (fields : List String) :
    Except Error Unit := do
  fields.forM fun field => do
    let _ ← uniqueHeaderValue header field false
  rejectAmbiguousSecurityHeaders p header

def headerAddress (header : Header) (field : String) (required : Bool) :
    Except Error Text := do
  let value ← uniqueHeaderValue header field required
  let value := trimSpace value
  if value = [] ∧ required = false then return []
  else
    match lib.parseAddressList value with
    | some [parsed] =>
      check (parsed.address != []) ("invalid " ++ field.toLower ++ " address")
      return p.lower parsed.address
    | _ => .error (.text ("invalid " ++ field.toLower ++ " address"))

def messageAddress (message : Text) (field : String) : Except Error Text := do
  let entity ← readCanonicalMIMEEntity message
  headerAddress p lib entity.1 field true

def authoritativeMessageBinding (header : Header) :
    Except Error AuthoritativeBinding := do
  let sender ← headerAddress p lib header "From" true
  let agent ← headerAddress p lib header "Sender" false
  let replyTo ← headerAddress p lib header "Reply-To" false
  let id ← uniqueHeaderValue header "Message-ID" true
  let _ ← checkMessageID (trimSpace id)
  let dateHeader ← uniqueHeaderValue header "Date" true
  let date ← require (lib.parseDate dateHeader) "invalid date header"
  let subject ← uniqueHeaderValue header "Subject" true
  check (!containsAny [13, 10] subject) "invalid subject header"
  return ⟨sender, agent, replyTo, trimSpace id, sumHex subject, [], date⟩

def authoritativeMessageBindingFromBytes (message : Text) :
    Except Error AuthoritativeBinding := do
  let entity ← readCanonicalMIMEEntity message
  authoritativeMessageBinding p lib entity.1

end Headers

section Signer

variable (p : Platform) (lib : MailLibrary)

def signedMIMEType (boundary : Text) : Text :=
  ascii "multipart/signed; protocol=\"application/pgp-signature\"; " ++
    ascii "micalg=pgp-sha256; boundary=\"" ++ boundary ++ ascii "\""

/-- The upper-case hexadecimal digits of a fingerprint. -/
def fingerprintText (fingerprint : Text) : Text :=
  lib.upper (fingerprint.flatMap fun byte =>
    [upperDigit (byte.toNat / 16), upperDigit (byte.toNat % 16)])

/-- The fields that are copied to the outside, unless they are empty. -/
def outerFields (header : Header) : Header :=
  ["From", "Sender", "Reply-To", "To", "Date", "Message-ID", "Subject"].filterMap fun field =>
      let value := get header (ascii field)
      if value = [] then none else some (ascii field, value)

/-- The header of the signed entity. -/
def assertionFields (type : Text) (identity : Identity) (fingerprint : Text)
    (binding : AuthoritativeBinding) : Header :=
  [(ascii "Content-Type", type), (ascii "X-GOTTH-Mail-Signed-From", identity.address),
    (ascii "X-GOTTH-Mail-Signing-Fingerprint", fingerprint),
    (ascii "X-GOTTH-Mail-Signed-Message-ID", binding.messageID),
    (ascii "X-GOTTH-Mail-Signed-Date", lib.formatInstant binding.date),
    (ascii "X-GOTTH-Mail-Signed-Subject-SHA256", binding.subjectSHA256)] ++
    (if binding.sender = [] then []
      else [(ascii "X-GOTTH-Mail-Signed-Sender", binding.sender)]) ++
    if binding.replyTo = [] then []
      else [(ascii "X-GOTTH-Mail-Signed-Reply-To", binding.replyTo)]

/-- End a text in a line end. -/
def terminated (text : Text) : Text := if lineEnd.isSuffixOf text then text else text ++ lineEnd

def signatureFields : Header :=
  [(ascii "Content-Type", ascii "application/pgp-signature; name=\"signature.asc\""),
    (ascii "Content-Description", ascii "OpenPGP digital signature"),
    (ascii "Content-Disposition", ascii "attachment; filename=\"signature.asc\"")]

def wrapSigned (outer : Header) (boundary entity signature : Text) : Text :=
  writeHeader (outer ++ [(ascii "MIME-Version", ascii "1.0"),
      (ascii "Content-Type", signedMIMEType boundary)]) ++
    (ascii "--" ++ boundary ++ lineEnd ++ entity ++ lineEnd ++ ascii "--" ++
      boundary ++ lineEnd ++ writeHeader signatureFields ++ terminated signature ++
      lineEnd ++ ascii "--" ++ boundary ++ ascii "--" ++ lineEnd)

/-- The data that is signed, and the headers that go to the outside. -/
def signedEntity (key : SigningKey) (identity : Identity) (message : Text) :
    Except Error (Text × Header) := do
  check (message != []) "mime message required"
  let fingerprint := fingerprintText lib key.fingerprint
  check (identity.address != [] && identity.fingerprint != [] &&
    p.equalFold identity.fingerprint fingerprint) "openpgp identity fingerprint mismatch"
  let sender ← messageAddress p lib message "From"
  check (p.equalFold sender identity.address) "openpgp sender identity mismatch"
  let original ← readCanonicalMIMEEntity message
  let binding ← authoritativeMessageBinding p lib original.1
  let type := get original.1 (ascii "Content-Type")
  let type := if type = [] then ascii "text/plain; charset=utf-8" else type
  return (terminated (writeHeader (assertionFields lib type identity fingerprint
    binding) ++ original.2), outerFields original.1)

def signedBoundary (token : Text) : Text := ascii "gotth-mail-openpgp-" ++ token

def signMIME (key : Option SigningKey) (token : Text) (identity : Identity)
    (message : Text) : Except Error (Text × SignatureStatus) := do
  let key ← require key "openpgp private entity required"
  let entity ← signedEntity p lib key identity message
  let signature ← key.armoredDetachSign entity.1
  return (wrapSigned entity.2 (signedBoundary token) entity.1 signature,
    ⟨fingerprintText lib key.fingerprint, identity.address, true⟩)

end Signer

section Verifier

variable (p : Platform) (lib : MailLibrary)

/-- The bytes between two positions. -/
def slice (text : Text) (start stop : Nat) : Text := (text.take stop).drop start

/-- Whether two dashes follow a marker, and where the blanks after it end. -/
def afterMarker (body : Text) (stop : Nat) : Bool × Nat :=
  let closing := (body.drop stop).take 2 == ascii "--"
  let stop := if closing then stop + 2 else stop
  (closing, stop + ((body.drop stop).takeWhile isBlank).length)

/-- One round of the scanner's loop: its answer, or the position and the flag of
the next round.  Once a marker with two dashes has been met, the flag stays. -/
def boundaryRound (body marker : Text) : Nat × Bool → Option (Nat × Nat × Bool) ⊕ Nat × Bool
  | (searchFrom, final) =>
    match indexOf marker (body.drop searchFrom) with
    | none => .inl none
    | some offset =>
      let start := searchFrom + offset
      if start ≠ 0 ∧ (start < 2 ∨ slice body (start - 2) start ≠ lineEnd) then
        .inr (start + 1, final)
      else
        let follows := afterMarker body (start + marker.length)
        let final := final || follows.1
        if follows.2 = body.length then
          .inl (if final then some (start, follows.2, true) else none)
        else if (body.drop follows.2).take 2 = lineEnd then
          .inl (some (start, follows.2 + 2, final))
        else .inr (start + 1, final)

/-- The next delimiter line: where it starts, where it ends and whether it is the
last one. -/
def nextRawBoundary (body marker : Text) : Nat → Nat → Bool → Option (Nat × Nat × Bool)
  | 0, _, _ => none
  | fuel + 1, searchFrom, final =>
    match boundaryRound body marker (searchFrom, final) with
    | .inl answer => answer
    | .inr (next, final) => nextRawBoundary body marker fuel next final

/-- One round of the splitting: a part, and where the next one starts. -/
def splitRound (body marker : Text) (partStart : Nat) : Except Error (Text × Option Nat) := do
  let (start, stop, final) ← require (nextRawBoundary body marker (body.length + 1) partStart false)
    "unterminated MIME multipart"
  check (decide (partStart + 2 ≤ start) &&
    slice body (start - 2) start == lineEnd) "invalid MIME boundary separation"
  return (slice body partStart (start - 2), if final then none else some stop)

/-- The parts of a multipart, from the start of one of them on. -/
def splitFrom (body marker : Text) : Nat → Nat → Except Error (List Text)
  | 0, _ => .error (.text "unterminated MIME multipart")
  | fuel + 1, partStart => do
      match ← splitRound body marker partStart with
      | (part, none) => return [part]
      | (part, some stop) => return part :: (← splitFrom body marker fuel stop)

def splitRawMIMEParts (body boundary : Text) : Except Error (List Text) := do
  check (boundary != []) "empty MIME boundary"
  let marker := ascii "--" ++ boundary
  let (_, stop, final) ← require (nextRawBoundary body marker (body.length + 1) 0 false)
    "unterminated MIME multipart"
  check (!final) "MIME multipart has no parts"
  splitFrom body marker (body.length + 1) stop

def MediaType.parameter (type : MediaType) (name : String) : Text :=
  (type.parameters.lookup (ascii name)).getD []

/-- The boundary that the wrapper of a signed message declares. -/
def declaredBoundary (header : Header) : Except Error Text := do
  let value ← uniqueHeaderValue header "Content-Type" true
  let type ← require (lib.parseMediaType value) "invalid OpenPGP/MIME signed wrapper"
  check (p.equalFold type.name (ascii "multipart/signed") &&
    p.equalFold (type.parameter "protocol") (ascii "application/pgp-signature") &&
    p.equalFold (type.parameter "micalg") (ascii "pgp-sha256") &&
    type.parameter "boundary" != []) "invalid OpenPGP/MIME signed wrapper"
  return type.parameter "boundary"

def signatureOf (part : Text) : Except Error Text := do
  let second ← require (readCanonicalMIMEEntity part).toOption "invalid OpenPGP/MIME signature part"
  rejectAmbiguousSecurityHeaders p second.1
  let value ← uniqueHeaderValue second.1 "Content-Type" true
  let type ← require (lib.parseMediaType value) "invalid OpenPGP/MIME signature content type"
  check (p.equalFold type.name (ascii "application/pgp-signature"))
    "invalid OpenPGP/MIME signature content type"
  check (second.2 != [] && decide (second.2.length ≤ maxSignatureBytes) &&
    (indexOf (ascii "BEGIN PGP SIGNATURE") second.2).isSome) "invalid OpenPGP signature part"
  return second.2

/-- The signed part and the signature of a message. -/
def splitOpenPGPMIME (signed : Text) : Except Error (Text × Text) := do
  let entity ← readCanonicalMIMEEntity signed
  rejectAmbiguousHeaders p entity.1 ["From", "Sender", "Reply-To", "Message-ID",
    "Date", "Subject", "MIME-Version"]
  let boundary ← declaredBoundary p lib entity.1
  match (splitRawMIMEParts entity.2 boundary).toOption with
  | some [data, second] => do
      check (decide (data.length ≤ maxSignedBytes)) "OpenPGP/MIME signed data too large"
      let _ ← require (readCanonicalMIMEEntity data).toOption
        "invalid OpenPGP/MIME signed data part"
      let signature ← signatureOf p lib second
      return (data, signature)
  | _ => .error (.text "invalid OpenPGP/MIME part count")

/-- The lines of an armor block with single newlines. -/
def dropReturns : Text → Except Error Text
  | [] => .ok []
  | byte :: rest => do
      check (byte != 13 || rest.head? == some 10)
        "OpenPGP detached signature armor uses non-canonical line endings"
      let more ← dropReturns rest
      return if byte = 13 then more else byte :: more

def canonicalArmorBytes (signature : Text) : Except Error Text := do
  check (trimSpace signature != []) "OpenPGP detached signature armor required"
  dropReturns (trimSpace signature)

def decodeArmoredDetachedSignature (ring : KeyRing) (signature : Text) :
    Except Error Text := do
  let normalized ← canonicalArmorBytes signature
  ring.openArmor normalized

def validateSignedEntityHeaders (header : Header) : Except Error Unit := do
  rejectAmbiguousSecurityHeaders p header
  ["Content-Type", "X-GOTTH-Mail-Signed-From", "X-GOTTH-Mail-Signing-Fingerprint",
    "X-GOTTH-Mail-Signed-Message-ID", "X-GOTTH-Mail-Signed-Date",
    "X-GOTTH-Mail-Signed-Subject-SHA256"].forM fun field => do
      let _ ← uniqueHeaderValue header field true
  rejectAmbiguousHeaders p header ["X-GOTTH-Mail-Signed-Sender", "X-GOTTH-Mail-Signed-Reply-To"]

def signedEntityAssertions (entity : Text) : Except Error AuthoritativeBinding := do
  let read ← readCanonicalMIMEEntity entity
  let header := read.1
  validateSignedEntityHeaders p header
  let sender ← uniqueHeaderValue header "X-GOTTH-Mail-Signed-From" true
  let fingerprint ← uniqueHeaderValue header "X-GOTTH-Mail-Signing-Fingerprint" true
  let id ← uniqueHeaderValue header "X-GOTTH-Mail-Signed-Message-ID" true
  let dateValue ← uniqueHeaderValue header "X-GOTTH-Mail-Signed-Date" true
  let subject ← uniqueHeaderValue header "X-GOTTH-Mail-Signed-Subject-SHA256" true
  let agent ← uniqueHeaderValue header "X-GOTTH-Mail-Signed-Sender" false
  let replyTo ← uniqueHeaderValue header "X-GOTTH-Mail-Signed-Reply-To" false
  let date ← require (lib.parseInstant (trimSpace dateValue))
    "missing OpenPGP sender binding assertion"
  let asserted : AuthoritativeBinding := ⟨p.lower (trimSpace sender),
    p.lower (trimSpace agent), p.lower (trimSpace replyTo), trimSpace id,
    p.lower (trimSpace subject), lib.upper (trimSpace fingerprint), date⟩
  check (asserted.from_ != [] && asserted.fingerprint != [] &&
    asserted.messageID != [] && asserted.subjectSHA256 != [])
    "missing OpenPGP sender binding assertion"
  return asserted

/-- Whether the headers outside are what the signed entity asserts. -/
def bindingMatches (expected : Identity) (sender fingerprint : Text)
    (binding asserted : AuthoritativeBinding) : Bool :=
  expected.address != [] && expected.fingerprint != [] && p.equalFold expected.address sender &&
    p.equalFold expected.address asserted.from_ && p.equalFold expected.fingerprint fingerprint &&
    p.equalFold expected.fingerprint asserted.fingerprint &&
    binding.messageID == asserted.messageID && binding.date == asserted.date &&
    binding.subjectSHA256 == asserted.subjectSHA256 && p.equalFold binding.sender asserted.sender &&
    p.equalFold binding.replyTo asserted.replyTo

def verifyExactSender (ring : Option KeyRing) (signed : Text) (expected : Identity) :
    Except Error SignatureStatus := do
  let ring ← require ring "openpgp public keyring required"
  let parts ← splitOpenPGPMIME p lib signed
  let packet ← decodeArmoredDetachedSignature ring parts.2
  let signer ← ring.checkDetachedSignature parts.1 packet
  let fingerprint := fingerprintText lib signer
  let sender ← messageAddress p lib signed "From"
  let binding ← authoritativeMessageBindingFromBytes p lib signed
  let asserted ← signedEntityAssertions p lib parts.1
  check (bindingMatches p expected sender fingerprint binding asserted)
    "openpgp exact sender verification failed"
  return ⟨fingerprint, sender, true⟩

end Verifier

end GotthMail
