/-
Imports of a Mailu configuration.  A preview assesses every candidate of a
source document; its application adopts the candidates into the in-memory store
once the adopted state has passed the lookups of the daemons.
-/
import GotthMail.Audit
import GotthMail.Daemon

namespace GotthMail

open Bytes Framing Sha256 Ranges Effect

/-- The type of a candidate; a candidate without one has the empty other type. -/
inductive CandidateType where
  | domain
  | user
  | alias
  | relay
  | dkim
  | token
  | malformed
  | other (name : Text)
deriving DecidableEq

inductive VerifierAlgorithm where
  | unstated
  | pbkdf2SHA256
  | mailuBcryptSHA256
  | other (name : Text)
deriving DecidableEq

structure MailuCandidate where
  type : CandidateType
  id : Text
  value : Text
  values : List Text
  plaintextSecret : Bool
  weakDKIMPermission : Bool
  weakRoleMapping : Bool
  revoked : Bool
  verifierAlgorithm : VerifierAlgorithm
deriving DecidableEq

/-- A candidate of which nothing but its type, name and value is set. -/
def MailuCandidate.plain (type : CandidateType) (id value : Text) :
    MailuCandidate :=
  ⟨type, id, value, [], false, false, false, false, .unstated⟩

structure MailuDomain where
  name : Text
  dkimKey : Text

structure MailuUser where
  email : Text
  password : Text
  enabled : Option Bool

structure MailuAlias where
  email : Text
  destination : List Text

structure MailuRelay where
  name : Text
  host : Text

structure MailuConfigExport where
  domains : List MailuDomain
  users : List MailuUser
  aliases : List MailuAlias
  relays : List MailuRelay

inductive ImportStatus where
  | imported
  | skipped
  | failedValidation
  | incompatible
  | manualActionRequired
deriving DecidableEq

structure ImportItem where
  type : CandidateType
  id : Text
  status : ImportStatus
  reason : Text
deriving DecidableEq

structure ImportPreview where
  id : Text
  hash : Text
  sourceFingerprint : Text
  actorType : Text
  actorID : Text
  expiresAt : Time
  items : List ImportItem
  candidates : List MailuCandidate
deriving DecidableEq

structure ImportStore where
  previews : Mapping Text ImportPreview
  domains : Mapping Text DaemonDomain
  mailboxes : Mapping Text DaemonMailbox
  aliases : Mapping Text DaemonAlias
  relays : Mapping Text Text
  dkim : Mapping Text Text
  tokens : Mapping Text MailuCandidate

def newImportStore : ImportStore := ⟨∅, ∅, ∅, ∅, ∅, ∅, ∅⟩

/-- The decoders of the two source formats, the text of an instant, the identifiers
drawn one after the other and what a timestamp column keeps of a time. -/
structure ImportSite where
  platform : Platform
  order : Order Text
  decodeCandidates : Text → Option (List MailuCandidate)
  decodeExport : Text → Option MailuConfigExport
  formatNano : Time → Text
  newUUID : Nat → Text
  round : Time → Time

def mailuBcryptPrefix : Text := ascii "mailu_bcrypt_sha256$"

def hidden : Text := ascii "<hidden>"

def validateMailuBcrypt (verifier : Text) : Bool :=
  let raw := verifier.drop mailuBcryptPrefix.length
  let ellipsis : Text := [0xE2, 0x80, 0xA6]
  mailuBcryptPrefix.isPrefixOf verifier &&
    (match raw.splitOn 36 with
      | [start, scheme, rounds, salt, digest] =>
        start == [] && scheme == ascii "bcrypt-sha256" &&
          (indexOf (ascii "r=") rounds).isSome && salt.length == 22 && digest.length == 31
      | _ => false) &&
    (indexOf ellipsis raw).isNone && (indexOf hidden raw).isNone

namespace ImportSite

variable (site : ImportSite)

def normalizeName (name : Text) : Text := site.platform.lower (trimSpace name)

def normalizeAddresses (addresses : List Text) : List Text :=
  (addresses.map site.normalizeName).filter (· != [])

def domainCandidates (domain : MailuDomain) : List MailuCandidate :=
  let name := site.normalizeName domain.name
  .plain .domain name [] ::
    if trimSpace domain.dkimKey ≠ [] ∧ domain.dkimKey ≠ hidden then
      [.plain .dkim name domain.dkimKey]
    else []

def userCandidate (user : MailuUser) : MailuCandidate :=
  let email := site.normalizeName user.email
  { (if trimSpace user.password ≠ [] then
      { MailuCandidate.plain .user email (mailuBcryptPrefix ++ user.password) with
        verifierAlgorithm := .mailuBcryptSHA256 }
    else .plain .user email []) with
    revoked := user.enabled == some false }

def aliasCandidate (found : MailuAlias) : MailuCandidate :=
  { MailuCandidate.plain .alias (site.normalizeName found.email) [] with
    values := site.normalizeAddresses found.destination }

def relayCandidate (relay : MailuRelay) : MailuCandidate :=
  let name := site.normalizeName relay.name
  .plain .relay (if name = [] then site.normalizeName relay.host else name) (trimSpace relay.host)

def parseMailuImportCandidates (source : Text) : List MailuCandidate :=
  match site.decodeCandidates source with
  | some candidates => candidates
  | none =>
    match site.decodeExport source with
    | none => [.plain .malformed (ascii "source") []]
    | some exported =>
      exported.domains.flatMap site.domainCandidates ++ exported.users.map site.userCandidate ++
        exported.aliases.map site.aliasCandidate ++ exported.relays.map site.relayCandidate

def aliasTargets (candidate : MailuCandidate) : List Text :=
  if candidate.values ≠ [] then site.normalizeAddresses candidate.values
  else if trimSpace candidate.value = [] then []
  else site.normalizeAddresses [candidate.value]

def validAddress (address : Text) : Bool :=
  (site.platform.parseAddress address).any (fun parsed => parsed.address == address) &&
    address.count atSign == 1 &&
    match cutAddress (site.platform.lower address) with
    | none => false
    | some (localPart, domain) =>
      localPart != [] && validateDomainName site.platform domain

def supportedTypes : List CandidateType := [.domain, .user, .alias, .relay, .dkim, .token]

/-- The status of a candidate in a preview, and the reason for it. -/
def assess (c : MailuCandidate) : ImportStatus × String :=
  if c.type = .malformed then (.failedValidation, "malformed import source")
  else if c.type = .other [] ∨ c.id = [] then
    (.failedValidation, "type/id required")
  else if c.type ∉ supportedTypes then
    (.failedValidation, "unsupported candidate type")
  else if c.type = .domain ∧ validateDomainName site.platform c.id = false then
    (.failedValidation, "invalid domain")
  else if (c.type = .user ∨ c.type = .alias) ∧ site.validAddress c.id = false then
    (.failedValidation, "invalid address")
  else if c.type = .alias ∧ site.aliasTargets c = [] then
    (.failedValidation, "alias target required")
  else if c.type = .alias ∧ (site.aliasTargets c).all site.validAddress = false then
    (.failedValidation, "invalid alias target")
  else if c.type = .user ∧ c.verifierAlgorithm = .pbkdf2SHA256 ∧
      (verifyDjangoPBKDF2SHA256 c.value (ascii "probe")).toOption.isSome then
    (.failedValidation, "verifier unexpectedly matches probe secret")
  else if c.type = .user ∧ c.verifierAlgorithm = .pbkdf2SHA256 ∧
      (validateDjangoPBKDF2SHA256 c.value).toOption.isNone then
    (.failedValidation, "invalid pbkdf2 verifier format")
  else if c.plaintextSecret then
    (.incompatible, "plaintext secret import rejected")
  else if c.weakDKIMPermission then
    (.manualActionRequired, "dkim permission weakening requires manual review")
  else if c.weakRoleMapping then
    (.manualActionRequired, "role mapping weakening requires manual review")
  else if c.type = .user ∧ c.verifierAlgorithm = .mailuBcryptSHA256 ∧
      validateMailuBcrypt c.value = false then
    (.failedValidation, "invalid mailu bcrypt-sha256 verifier format")
  else if c.verifierAlgorithm ∉ [.unstated, .pbkdf2SHA256, .mailuBcryptSHA256] then
    (.incompatible, "unsupported verifier algorithm")
  else if c.revoked then
    (.skipped, "revoked or disabled source item skipped")
  else (.imported, "supported")

def itemOf (candidate : MailuCandidate) : ImportItem :=
  let (status, reason) := site.assess candidate
  ⟨candidate.type, candidate.id, status, ascii reason⟩

/-- Fifteen minutes in nanoseconds. -/
def previewLifetime : Time := 900000000000

/-- The preview of a source document, which the store keeps under its name. -/
def preview (source : Text) (actor : ActorRef) (now : Time) : ImportPreview :=
  let digest := sum256 (source ++ actor.id ++ site.formatNano now)
  let candidates := site.parseMailuImportCandidates source
  { id := ascii "imp_" ++ encodeHex (digest.take 4)
    hash := encodeHex digest
    sourceFingerprint := encodeHex ((digest.drop 4).take 8)
    actorType := actor.type
    actorID := actor.id
    expiresAt := now + previewLifetime
    items := candidates.map site.itemOf
    candidates := candidates }

end ImportSite

/-- What the caller of an application passes on from the preview. -/
structure ImportConfirmation where
  actor : ActorRef
  id : Text
  hash : Text
  fingerprint : Text

def validateImportPreviewForApply (preview : ImportPreview)
    (confirmation : ImportConfirmation) (now : Time) : Except Text Unit :=
  if confirmation.actor.type ≠ preview.actorType ∨ confirmation.actor.id ≠ preview.actorID then
    .error (ascii "actor mismatch")
  else if preview.expiresAt < now then .error (ascii "preview expired")
  else if confirmation.hash ≠ preview.hash ∨
      confirmation.fingerprint ≠ preview.sourceFingerprint then
    .error (ascii "preview hash/source fingerprint mismatch")
  else if preview.items = [] then .error (ascii "empty import preview")
  else if preview.items.all fun item =>
      item.status == .imported || item.status == .skipped then .ok ()
  else .error (ascii "preview contains inadmissible items")

/-- The candidates that an application does not pass over. -/
def ImportPreview.live (preview : ImportPreview) : List MailuCandidate :=
  preview.candidates.filter fun candidate => !candidate.revoked

namespace ImportSite

variable (site : ImportSite)

def adopt (service : Daemon) (candidate : MailuCandidate) : Daemon :=
  match candidate.type with
  | .domain => { service with
      domains := service.domains.insert candidate.id ⟨candidate.id, true⟩ }
  | .user => { service with
      mailboxes := service.mailboxes.insert candidate.id ⟨candidate.id, true, candidate.value⟩ }
  | .alias => { service with
      aliases := service.aliases.insert candidate.id
        ⟨candidate.id, true, site.aliasTargets candidate⟩ }
  | _ => service

/-- The service that the base state and the candidates make up. -/
def adopted (preview : ImportPreview) (base : Daemon) : Daemon :=
  preview.live.foldl site.adopt ⟨false, base.domains, base.mailboxes, base.aliases, ∅, none⟩

def importedMailboxes (preview : ImportPreview) : List Text :=
  (preview.live.filter fun candidate => candidate.type = .user).map MailuCandidate.id

def verifyMailbox (service : Daemon) (address : Text) : Except Text Unit :=
  if (service.domains.lookup (Daemon.domainPart address)).all fun domain => !domain.enabled then
    .error (ascii "imported mailbox domain missing or disabled")
  else
    let got := service.postfixRecipient site.platform site.order address
    if got.decision = .ok then .ok ()
    else .error (ascii ("imported daemon contract verification failed: " ++ got.reason))

def verifyAdoptedImportState (preview : ImportPreview) (base : Daemon) :
    Except Text Daemon := do
  let service := site.adopted preview base
  let mailboxes := importedMailboxes preview
  if mailboxes = [] ∧ service.mailboxes.keys = [] then
    .error (ascii "daemon contract verification missing")
  mailboxes.forM (site.verifyMailbox service)
  match mailboxes, site.order.arrange service.mailboxes.keys with
  | [], address :: _ =>
    let got := service.postfixRecipient site.platform site.order address
    if got.decision = .ok then .ok service
    else .error (ascii ("daemon contract verification failed: " ++ got.reason))
  | _, _ => .ok service

end ImportSite

/-- The event of a successful application. -/
def importEntry (actor : ActorRef) (preview : ImportPreview) : AuditEntry where
  id := []
  time := 0
  actor := actor
  source := none
  action := ascii "import.mailu.apply"
  resource := ⟨ascii "import_preview", preview.id⟩
  before := .null
  after := .null
  correlationID := []
  result := ascii "success"
  errorCode := []

/-- The in-memory store and the events that the audit writer has taken. -/
structure ImportMemory where
  store : ImportStore
  events : List AuditEntry

namespace ImportStore

/-- Write one candidate from the adopted service. -/
def write (service : Daemon) (store : ImportStore) (candidate : MailuCandidate) :
    ImportStore :=
  match candidate.type with
  | .domain => { store with
      domains := store.domains.insert candidate.id
        ((service.domains.lookup candidate.id).getD ⟨[], false⟩) }
  | .user => { store with
      mailboxes := store.mailboxes.insert candidate.id
        ((service.mailboxes.lookup candidate.id).getD ⟨[], false, []⟩) }
  | .alias => { store with
      aliases := store.aliases.insert candidate.id
        ((service.aliases.lookup candidate.id).getD ⟨[], false, []⟩) }
  | .relay => { store with
      relays := store.relays.insert candidate.id candidate.value }
  | .dkim => { store with dkim := store.dkim.insert candidate.id candidate.value }
  | .token => { store with tokens := store.tokens.insert candidate.id candidate }
  | _ => store

def writeAll (service : Daemon) (preview : ImportPreview) (store : ImportStore) :
    ImportStore :=
  preview.live.foldl (write service) store

def find (store : ImportStore) (id : Text) : Except Text ImportPreview :=
  match store.previews.lookup id with
  | none => .error (ascii "preview not found")
  | some preview => .ok preview

/-- The checks of an application before it changes anything. -/
def admitMemory (site : ImportSite) (confirmation : ImportConfirmation) (now : Time)
    (base : Daemon) (store : ImportStore) :
    Except Text (ImportPreview × Daemon) := do
  let preview ← store.find confirmation.id
  validateImportPreviewForApply preview confirmation now
  let service ← site.verifyAdoptedImportState preview base
  return (preview, service)

/-- The writes of an admitted application, and its event. -/
def finish (writer : AuditWriter) (actor : ActorRef) (preview : ImportPreview)
    (service : Daemon) : Effect ImportMemory Text Unit := do
  alter fun memory => { memory with store := memory.store.writeAll service preview }
  Effect.guard writer.accepts (ascii "audit")
  alter fun memory => { memory with
    events := memory.events ++ [importEntry actor preview] }

def apply (site : ImportSite) (writer : AuditWriter)
    (confirmation : ImportConfirmation) (now : Time) (base : Daemon) :
    Effect ImportMemory Text Unit := do
  let store ← ask ImportMemory.store
  let admitted ← Effect.of (store.admitMemory site confirmation now base)
  finish writer confirmation.actor admitted.1 admitted.2

structure SameEntries (first second : ImportStore) : Prop where
  domains : ∀ key, first.domains.lookup key = second.domains.lookup key
  mailboxes : ∀ key, first.mailboxes.lookup key = second.mailboxes.lookup key
  aliases : ∀ key, first.aliases.lookup key = second.aliases.lookup key
  relays : ∀ key, first.relays.lookup key = second.relays.lookup key
  dkim : ∀ key, first.dkim.lookup key = second.dkim.lookup key
  tokens : ∀ key, first.tokens.lookup key = second.tokens.lookup key

theorem SameEntries.refl (store : ImportStore) : store.SameEntries store :=
  ⟨fun _ => rfl, fun _ => rfl, fun _ => rfl, fun _ => rfl, fun _ => rfl, fun _ => rfl⟩

end ImportStore

end GotthMail
