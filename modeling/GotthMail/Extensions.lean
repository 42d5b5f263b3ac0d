/-
What the administration of extensions checks before it writes: tokens, metadata,
configurations, requests and the digests that bind a preview.  A stored document
is read back through the floating point numbers of the program.
-/
import GotthMail.Audit
import GotthMail.Ranges

namespace GotthMail

open Bytes Framing Sha256 Ranges Relational

inductive ExtensionError where
  | unavailable
  | notFound
  | conflict
  | confirmation
  | unauthenticated
  | unhealthy
  | text (message : String)
  | sql
  | runtime
deriving DecidableEq, Repr

/-- Continue only when a condition holds. -/
def demand (condition : Bool) (reason : ExtensionError) :
    Except ExtensionError Unit :=
  if condition then .ok () else .error reason

@[simp] theorem demand_ok_iff {condition : Bool} {reason : ExtensionError}
    {u : Unit} : demand condition reason = .ok u ↔ condition = true := by
  cases condition <;> simp [demand]

inductive FieldKind where
  | string
  | integer
  | boolean
  | enum
  | secret
  | other (name : Text)
deriving DecidableEq

def FieldKind.text : FieldKind → Text
  | .string => ascii "string"
  | .integer => ascii "integer"
  | .boolean => ascii "boolean"
  | .enum => ascii "enum"
  | .secret => ascii "secret"
  | .other name => name

structure ExtensionField where
  name : Text
  label : Text
  kind : FieldKind
  required : Bool
  min : Option Int
  max : Option Int
  default : Option JsonValue
  options : List Text

structure ExtensionMetadata where
  schema : Text
  fields : List ExtensionField

/-- Numbers in the program, the case of text, and the key of the administrator. -/
structure ExtensionSite where
  platform : Platform
  numbers : NumberFormat
  key : Text

/-- An integer in a configuration.  A floating point number is written with digits only
when it is one; the conversion of 2^63, which the language leaves open, counts as failed. -/
def integerValue : JsonValue → Option Int
  | .number literal => atoi literal
  | _ => none

def metadataSchema : Text := ascii "gotth.mail.extension.config.v1"

def maxMetadataBytes : Nat := 65536

def maxFields : Nat := 64

def maxConfigBytes : Nat := 65536

def maxSecretBytes : Nat := 4096

def integerJSON (value : Int) : JsonValue :=
  .number (if value < 0 then 45 :: decimal value.natAbs else decimal value.natAbs)

def ExtensionField.json (field : ExtensionField) : JsonValue :=
  .object ([(ascii "name", .string field.name), (ascii "label", .string field.label),
      (ascii "kind", .string field.kind.text)] ++
    (if field.required then [(ascii "required", .bool true)] else []) ++
    (field.min.map fun value => (ascii "min", integerJSON value)).toList ++
    (field.max.map fun value => (ascii "max", integerJSON value)).toList ++
    (field.default.map fun value => (ascii "default", value)).toList ++
    if field.options = [] then []
    else [(ascii "options", .array (field.options.map .string))])

def ExtensionMetadata.json (metadata : ExtensionMetadata) : JsonValue :=
  .object [(ascii "schema", .string metadata.schema),
    (ascii "fields", .array (metadata.fields.map ExtensionField.json))]

def validScalarText (value : Text) (maximum : Nat) : Bool :=
  value != [] && decide (value.length ≤ maximum) && trimSpace value == value &&
    validUTF8 value && !(decode value).any isControl

def isTokenByte (byte : UInt8) : Bool :=
  decide (97 ≤ byte ∧ byte ≤ 122) || decide (48 ≤ byte ∧ byte ≤ 57) || byte == 45

def validTokenPart (part : Text) : Bool :=
  decide (part.length ≤ 63) && (match part.head? with
    | none => false
    | some first => decide (97 ≤ first ∧ first ≤ 122)) &&
    part.getLast? != some 45 && part.all isTokenByte

def validDottedToken (value : Text) : Bool :=
  decide (3 ≤ value.length ∧ value.length ≤ 128) &&
    decide (2 ≤ (value.splitOn dot).length) && (value.splitOn dot).all validTokenPart

/-- The tokens in the order of their bytes, each of them valid and none twice. -/
def canonicalTokens (values : List Text) : Except ExtensionError (List Text) :=
  let sorted := byteOrder.sortBy id values
  if sorted.all validDottedToken && decide sorted.Nodup then .ok sorted
  else .error (.text "invalid or duplicate extension token")

def validUUID (value : Text) : Bool :=
  value.length == 36 && [8, 13, 18, 23].all (fun place => value[place]? == some 45) &&
    (decodeHex (value.filter (· != 45))).isSome

def isNameByte (byte : UInt8) : Bool :=
  decide (97 ≤ byte ∧ byte ≤ 122) || decide (48 ≤ byte ∧ byte ≤ 57)

def repositoryStart : Text := ascii "https://github.com/gotthboard/gotth-extension-"

def validRepository (value : Text) : Bool :=
  let name := value.drop repositoryStart.length
  repositoryStart.isPrefixOf value && decide (1 ≤ name.length ∧ name.length ≤ 63) &&
    name.all isTokenByte && name.head?.any isNameByte && name.getLast?.any isNameByte

def validArtifact (value : Text) : Bool :=
  (ascii "sha256:").isPrefixOf value && validLowerHexDigest (value.drop 7)

def validateActor (actor : ActorRef) : Except ExtensionError Unit :=
  demand (validScalarText actor.type 64 && validScalarText actor.id 1024) .confirmation

namespace ExtensionSite

variable (site : ExtensionSite)

def validLabel (value : Text) : Bool :=
  let lower := site.platform.lower value
  validScalarText value 128 && !value.any (fun byte => [60, 62, 38].elem byte) &&
    (indexOf (ascii "://") lower).isNone && (indexOf (ascii "javascript:") lower).isNone &&
    (indexOf (ascii "data:") lower).isNone

def validateFieldValue (field : ExtensionField) (value : JsonValue) :
    Except ExtensionError Unit :=
  match field.kind with
  | .string =>
    match value.string? with
    | none => .error (.text "invalid string configuration")
    | some text => do
        demand (validScalarText text 4096) (.text "invalid string configuration")
        demand (field.min.all (fun low => decide (low ≤ (text.length : Int))) &&
            field.max.all (fun high => decide ((text.length : Int) ≤ high)))
          (.text "string configuration outside bounds")
  | .integer =>
    match integerValue value with
    | none => .error (.text "invalid integer configuration")
    | some number =>
      demand (field.min.all (fun low => decide (low ≤ number)) &&
          field.max.all (fun high => decide (number ≤ high)))
        (.text "invalid integer configuration")
  | .boolean => demand value.bool?.isSome (.text "invalid boolean configuration")
  | .enum => demand (value.string?.any field.options.elem) (.text "invalid enum configuration")
  | .secret =>
    .error (.text "secret values require the write-only secret channel")
  | .other _ => .error (.text "unknown configuration field")

def bounded (bound : Option Int) : Bool := bound.all fun value => decide (0 ≤ value ∧ value ≤ 4096)

def ordered (field : ExtensionField) : Bool :=
  field.min.all fun low => field.max.all fun high => decide (low ≤ high)

def validateKind (field : ExtensionField) : Except ExtensionError Unit :=
  match field.kind with
  | .string => demand (field.options == [] && bounded field.min &&
      bounded field.max && ordered field) (.text "invalid string metadata field")
  | .integer => demand (field.options == [] && ordered field)
      (.text "invalid integer metadata field")
  | .boolean => demand (field.options == [] && field.min.isNone && field.max.isNone)
      (.text "invalid boolean metadata field")
  | .enum => demand (decide (1 ≤ field.options.length ∧ field.options.length ≤ 64) &&
      field.min.isNone && field.max.isNone &&
      field.options.all (validScalarText · 128) && decide field.options.Nodup)
      (.text "invalid enum metadata field")
  | .secret => demand (field.default.isNone && field.options == [] &&
      field.min.isNone && field.max.isNone) (.text "invalid secret metadata field")
  | .other _ => .error (.text "unknown extension metadata field kind")

def validateField (field : ExtensionField) : Except ExtensionError Unit := do
  demand (validDottedToken field.name && site.validLabel field.label)
    (.text "invalid extension metadata field")
  validateKind field
  match field.default with
  | none => return ()
  | some value =>
    match validateFieldValue field value with
    | .ok _ => return ()
    | .error _ => .error (.text "invalid extension metadata default")

/-- The fields in their order, none of them with a name that has been seen. -/
def validateFields (seen : List Text) : List ExtensionField → Except ExtensionError Unit
  | [] => .ok ()
  | field :: rest => do
      demand (!seen.elem field.name) (.text "invalid extension metadata field")
      site.validateField field
      validateFields (field.name :: seen) rest

def validateMetadata (metadata : ExtensionMetadata) :
    Except ExtensionError Unit := do
  demand (metadata.schema == metadataSchema &&
    decide (metadata.fields.length ≤ maxFields)) (.text "invalid extension metadata")
  site.validateFields [] metadata.fields
  demand (decide ((marshal metadata.json).length ≤ maxMetadataBytes))
    (.text "extension metadata exceeds limit")

/-- The check of one member of a configuration against the fields. -/
def validateMember (metadata : ExtensionMetadata) (member : Member) :
    Except ExtensionError Unit :=
  match metadata.fields.find? fun field => field.name = member.1 with
  | none => .error (.text "configuration contains unknown or secret field")
  | some field => do
      demand (field.kind != .secret) (.text "configuration contains unknown or secret field")
      validateFieldValue field member.2

/-- The text of a configuration that fits its metadata. -/
def validateConfiguration (metadata : ExtensionMetadata)
    (configuration : List Member) (secretSlots : List Text) :
    Except ExtensionError Text := do
  site.validateMetadata metadata
  demand (metadata.fields.all fun field => field.kind != .secret || secretSlots.elem field.name)
    (.text "metadata secret slot not granted")
  configuration.forM (validateMember metadata)
  demand (metadata.fields.all fun field => field.kind == .secret ||
      !field.required || configuration.any (fun member => member.1 == field.name) ||
      field.default.isSome) (.text "required configuration field missing")
  let encoded := marshal (.object configuration)
  demand (decide (encoded.length ≤ maxConfigBytes)) (.text "configuration exceeds limit")
  return encoded

/-- The metadata as they are read back: defaults are generic values. -/
def decodeMetadata (metadata : ExtensionMetadata) : Option ExtensionMetadata := do
  let fields ← metadata.fields.mapM fun field =>
    match field.default with
    | none => some field
    | some value => (decodeValue site.numbers value).map fun decoded =>
      { field with default := some decoded }
  return { metadata with fields := fields }

def decodeConfiguration (configuration : List Member) : Option (List Member) :=
  (decodeMembers site.numbers configuration).map mapOf

/-- The message authentication code of a text under a key of one block. -/
def hmac (message : Text) : Text :=
  let key := site.key ++ List.replicate (64 - site.key.length) 0
  sum256 (key.map (· ^^^ 0x5c) ++ sum256 (key.map (· ^^^ 0x36) ++ message))

/-- The secrets in the order of their slots, each with the digest of its value. -/
def secretTranscript (secrets : Mapping Text Text) : Text :=
  (byteOrder.sortBy id secrets.keys).flatMap fun slot =>
    slot ++ 0 :: sum256 ((secrets.lookup slot).getD [])

def secretBinding (secrets : Mapping Text Text) : Text :=
  encodeHex (site.hmac (secretTranscript secrets))

def confirmationDigest (value : Text) : Text :=
  encodeHex (site.hmac (ascii "extension-preview-confirmation" ++ 0 :: value))

end ExtensionSite

def validateSecrets (secrets : Mapping Text Text) (slots : List Text) :
    Except ExtensionError Unit :=
  demand (secrets.entries.all fun entry => slots.elem entry.1 && entry.2 != [] &&
    decide (entry.2.length ≤ maxSecretBytes) && validUTF8 entry.2)
    (.text "invalid extension secret")

structure InstallRequest where
  instanceID : Text
  extensionID : Text
  repository : Text
  artifactPin : Text
  manifestDigest : Text
  grantDigest : Text
  sessionDigest : Text
  capabilities : List Text
  interfaces : List Text
  secretSlots : List Text
  metadata : ExtensionMetadata
  availableUpdate : Text
  correlationID : Text

structure ConfigureInput where
  configuration : List Member
  secrets : Mapping Text Text

structure UpdateInput where
  artifactPin : Text
  manifestDigest : Text
  grantDigest : Text
  sessionDigest : Text
  capabilities : List Text
  interfaces : List Text
  secretSlots : List Text
  metadata : ExtensionMetadata

def UpdateInput.json (input : UpdateInput) : JsonValue :=
  .object [(ascii "artifact_pin", .string input.artifactPin),
    (ascii "manifest_sha256", .string input.manifestDigest),
    (ascii "grant_sha256", .string input.grantDigest),
    (ascii "session_sha256", .string input.sessionDigest),
    (ascii "capabilities", .array (input.capabilities.map .string)),
    (ascii "interfaces", .array (input.interfaces.map .string)),
    (ascii "secret_slots", .array (input.secretSlots.map .string)),
    (ascii "metadata", input.metadata.json)]

/-- The request with its tokens in order. -/
def ExtensionSite.validateInstall (site : ExtensionSite) (request : InstallRequest) :
    Except ExtensionError InstallRequest := do
  demand (validUUID request.instanceID && validDottedToken request.extensionID &&
      validRepository request.repository && validArtifact request.artifactPin &&
      validLowerHexDigest request.manifestDigest && validLowerHexDigest request.grantDigest &&
      validLowerHexDigest request.sessionDigest &&
      (request.correlationID == [] || validScalarText request.correlationID 256))
    (.text "invalid extension installation")
  let capabilities ← canonicalTokens request.capabilities
  let interfaces ← canonicalTokens request.interfaces
  let secretSlots ← canonicalTokens request.secretSlots
  site.validateMetadata request.metadata
  demand (request.availableUpdate == [] || validArtifact request.availableUpdate)
    (.text "invalid available extension update")
  return { request with
    capabilities := capabilities
    interfaces := interfaces
    secretSlots := secretSlots }

end GotthMail
