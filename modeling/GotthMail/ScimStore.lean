/-
The SCIM store: the operations that a transaction offers to the SCIM library,
what they write and the mailboxes they leave to be projected.  An operation
that fails keeps what it has written; after an error of the database nothing
of the transaction can be committed.
-/
import GotthMail.Directory
import GotthMail.Sha1

namespace GotthMail

open Bytes Relational Effect

/-- A value of a decoded resource document. -/
inductive JsonValue where
  | null
  | bool (value : Bool)
  | number (literal : Text)
  | string (value : Text)
  | array (items : List JsonValue)
  | object (members : List (Text × JsonValue))

abbrev Document := List (Text × JsonValue)

def JsonValue.string? : JsonValue → Option Text
  | .string value => some value
  | _ => none

def JsonValue.bool? : JsonValue → Option Bool
  | .bool value => some value
  | _ => none

def JsonValue.object? : JsonValue → Option Document
  | .object members => some members
  | _ => none

/-- The string under a name, empty when there is none. -/
def Document.text (document : Document) (name : String) : Text :=
  ((document.lookup (ascii name)).bind JsonValue.string?).getD []

/-- The account of a mailbox, without its creation time. -/
structure IdentityMailbox where
  id : Text
  email : Text
  displayName : Text
  active : Bool
  verifier : Text
  updatedAt : Time
deriving DecidableEq

structure LegacyMailboxAdoption where
  mailboxID : Text
  mailbox : Text
  updatedAt : Time
  consumed : Bool
deriving DecidableEq

structure PasswordChange where
  verifier : Text
  revision : Text
deriving DecidableEq

structure MailboxProjection where
  previousEmail : Text
  mailbox : IdentityMailbox
deriving DecidableEq

/-- What the store calls outside of it: the case of text in the program and in
the database, the decoder of documents, and the keyed verifiers of passwords with
their revisions. -/
structure ScimSite where
  platform : Platform
  locale : Locale
  decodeDocument : Text → Except ScimError Document
  makeVerifier : Text → Text → Text
  revision : Text → Text

/-- The part of the identity service that a transaction asks. -/
structure IdentityGate where
  authorizes : ActorRef → Text → Bool
  knownDomain : Text → Bool

/-- The caller of a transaction and the identity service behind it, if any. -/
structure ScimRequest where
  actor : ActorRef
  identity : Option IdentityGate

structure ScimTransaction where
  view : Directory
  aborted : Bool
  passwords : List (Text × PasswordChange)
  project : List MailboxProjection
  adoption : Option LegacyMailboxAdoption

abbrev Scim := Effect ScimTransaction ScimError

namespace Scim

/-- A statement that only reads. -/
def query {α : Type} (read : Directory → α) : Scim α := fun tx =>
  if tx.aborted then (.error .sql, tx) else (.ok (read tx.view), tx)

/-- A statement that writes; its error ends what the database will accept. -/
def execute (write : Directory → Except ScimError Directory) : Scim Unit :=
  fun tx => if tx.aborted then (.error .sql, tx)
    else
      match write tx.view with
      | .error reason => (.error reason, { tx with aborted := true })
      | .ok view => (.ok (), { tx with view := view })

/-- A statement that writes and returns a value. -/
def executeReturning {α : Type} (write : Directory → Except ScimError (α × Directory)) : Scim α :=
  fun tx => if tx.aborted then (.error .sql, tx)
    else
      match write tx.view with
      | .error reason => (.error reason, { tx with aborted := true })
      | .ok (value, view) => (.ok value, { tx with view := view })

end Scim

def validateRecordShape (record : ResourceRow) : Bool :=
  record.scope != [] && record.resourceType != [] && record.id != [] &&
    record.version != [] && record.created != 0 && decide (record.created ≤ record.lastModified) &&
    decide (0 < record.data.length ∧ record.data.length ≤ 2 ^ 20)

def recordPasswordKey (scope resourceType id : Text) : Text := scope ++ 0 :: resourceType ++ 0 :: id

/-- The letters, digits, hyphens and dots of a lower-case name with a dot. -/
def validateDomainName (p : Platform) (name : Text) : Bool :=
  name == p.lower name && decide (3 ≤ name.length) && !containsDots name &&
    name.elem dot && (decode name).all fun rune =>
      match rune.bytes with
      | [byte] => isHostByte byte
      | _ => false

/-- The text before the first at sign and the text after it. -/
def cutAddress (email : Text) : Option (Text × Text) :=
  match email.dropWhile (· != atSign) with
  | [] => none
  | _ :: domain => some (email.takeWhile (· != atSign), domain)

/-- The check of a mailbox address against the known domains. -/
def IdentityGate.validateMailbox (gate : IdentityGate) (p : Platform) (email : Text) : Bool :=
  (p.parseAddress email).any (fun parsed => parsed.address == email) && email.count atSign == 1 &&
    match cutAddress (p.lower email) with
    | none => false
    | some (_, domain) => validateDomainName p domain && gate.knownDomain domain

/-- An identifier derived from a seed, in the form of a random one. -/
def stableUUID (seed : Text) : Text :=
  let digest := (Sha1.sum seed).take 16
  let value := (digest.modify 6 fun byte => (byte &&& 0x0f) ||| 0x40).modify 8
    fun byte => (byte &&& 0x3f) ||| 0x80
  let encoded := Framing.encodeHex value
  encoded.take 8 ++ 45 :: (encoded.drop 8).take 4 ++ 45 :: (encoded.drop 12).take 4 ++
    45 :: (encoded.drop 16).take 4 ++ 45 :: encoded.drop 20

namespace ScimSite

variable (site : ScimSite)

/-- The index keys of a resource in the order of their ordinals. -/
def indexesOf (db : Directory) (scope resourceType id : Text) : List IndexKey :=
  ((Collation.natural Nat).sortBy IndexRow.ordinal
    (db.indexes.rows.filter fun row => row.scope == scope &&
      row.resourceType == resourceType && row.resourceID == id)).map
    IndexRow.index

def get (scope resourceType id : Text) : Scim ScimRecord := do
  let row ← Scim.query fun db => db.resource? scope resourceType id
  let found ← need row .notFound
  let indexes ← Scim.query fun db => indexesOf db scope resourceType id
  return { found with indexes := indexes }

structure ScimQuery where
  scope : Text
  resourceType : Text
  attributeName : Text
  value : Text
  limit : Nat

/-- The rows that a query asks for. -/
def selects (db : Directory) (query : ScimQuery) (row : ResourceRow) : Bool :=
  row.scope == query.scope && row.resourceType == query.resourceType &&
    if query.attributeName = [] then true
    else if site.platform.equalFold query.attributeName (ascii "externalId") then
      row.externalID == query.value
    else
      db.indexes.rows.any fun index =>
        index.scope == row.scope && index.resourceType == row.resourceType &&
          index.resourceID == row.id &&
          index.nameFolded == site.platform.lower query.attributeName &&
          if index.index.caseExact then index.index.value == query.value
          else site.locale.lower index.index.value == site.locale.lower query.value

def list (query : ScimQuery) : Scim (List ScimRecord) := do
  guard (query.scope != [] && query.resourceType != [] && decide (1 ≤ query.limit))
    (.text "SCIM store query is invalid")
  let rows ← Scim.query fun db => (site.locale.collation.sortBy ResourceRow.id
      (db.resources.rows.filter (site.selects db query))).take (query.limit + 1)
  guard (decide (rows.length ≤ query.limit)) .tooMany
  Scim.query fun db => rows.map fun row =>
    { row with indexes := indexesOf db query.scope query.resourceType row.id }

def replaceIndex (record : ResourceRow) (item : Nat × IndexKey) : Scim Unit := do
  let folded := site.platform.lower item.2.name
  Scim.execute fun db => db.declareContract
    ⟨record.scope, record.resourceType, folded, item.2.caseExact, item.2.unique⟩
  let found ← Scim.query fun db => db.contracts.find? (record.scope, record.resourceType, folded)
  let contract ← need found .noRows
  guard (contract.caseExact == item.2.caseExact && contract.unique == item.2.unique) .conflict
  Scim.execute fun db => db.insertIndex site.locale
    ⟨record.scope, record.resourceType, record.id, folded, item.1, item.2⟩

def replaceIndexes (record : ScimRecord) : Scim Unit := do
  Scim.execute fun db => db.dropIndexes record.toResourceRow
  forM ((List.range record.indexes.length).zip record.indexes)
    (site.replaceIndex record.toResourceRow)

def memberOf (item : JsonValue) : Except ScimError Text := do
  let some member := item.object?
    | .error (.protocol 400 "invalidValue" "Group member is invalid")
  let id := member.text "value"
  let kind := member.text "type"
  if id = [] ∨ (kind ≠ [] ∧ kind ≠ userType) then
    .error (.protocol 400 "invalidValue" "Group members must reference Users")
  else .ok id

/-- The members in the order of the document, each of them once. -/
def collectMembers : List JsonValue → List Text → Except ScimError (List Text)
  | [], seen => .ok seen
  | item :: rest, seen => do
      let id ← memberOf item
      if seen.contains id then
        .error (.protocol 409 "uniqueness" "Group member is duplicated")
      else collectMembers rest (seen ++ [id])

def membersOf (document : Document) : Except ScimError (List Text) :=
  match document.lookup (ascii "members") with
  | none => .ok []
  | some (.array items) => collectMembers items []
  | some _ => .error (.protocol 400 "invalidValue" "Group members are invalid")

def replaceGroupMembers (record : ResourceRow) : Scim Unit := do
  let document ← Effect.of (site.decodeDocument record.data)
  let members ← Effect.of (membersOf document)
  let live ← Scim.query fun db =>
    members.all fun id => (db.resource? record.scope userType id).isSome
  guard live (.protocol 409 "invalidValue" "Group member is not a live User in this scope")
  Scim.execute fun db => db.dropMembers record.scope record.id
  Scim.execute fun db => if members = [] then .ok db
    else db.insertMembers record.scope record.id members

/-- The account that the document of a user describes. -/
def describe (record : ResourceRow) : Except ScimError IdentityMailbox := do
  let document ← site.decodeDocument record.data
  let userName := document.text "userName"
  if userName = [] then .error (.text "SCIM userName is required")
  let displayName := document.text "displayName"
  let formatted := ((document.lookup (ascii "name")).bind
    JsonValue.object?).elim [] fun name => Document.text name "formatted"
  let active ← match document.lookup (ascii "active") with
    | none => .ok true
    | some (.bool active) => .ok active
    | some _ => .error (.text "SCIM active value is invalid")
  return ⟨record.id, site.platform.lower userName,
    if displayName = [] then formatted else displayName, active, [],
    record.lastModified⟩

/-- The row that a claim admits, when it is still what the claim says. -/
def adopted (claim : LegacyMailboxAdoption) (mailbox : IdentityMailbox)
    (place : DirectoryMailbox × DirectoryDomain) : Bool :=
  let email := site.locale.lower (Directory.addressOf place)
  site.platform.equalFold email claim.mailbox && site.platform.equalFold email mailbox.email &&
    place.1.updatedAt == claim.updatedAt &&
    place.1.scimResourceID.all (· == []) && place.2.enabled && place.1.enabled == mailbox.active &&
    place.1.displayName == mailbox.displayName

/-- The address and the verifier stored for a resource, or those of the mailbox
that a claim admits; empty for a new mailbox. -/
def stored (record : ResourceRow) (mailbox : IdentityMailbox) :
    Scim (Text × Text) := do
  let owned ← Scim.query fun db => db.located.find? fun place =>
    place.1.scimResourceID == some record.id
  let claim ← ask ScimTransaction.adoption
  match owned, claim with
  | some place, _ => return (Directory.addressOf place, place.1.verifier)
  | none, none => return ([], [])
  | none, some claim => do
      let found ← Scim.query fun db => db.located.find? fun place => place.1.id == claim.mailboxID
      let place ← need found (.text "legacy adoption mailbox is unavailable")
      guard (site.adopted claim mailbox place) .conflict
      alter fun tx =>
        { tx with adoption := some { claim with consumed := true } }
      return (site.locale.lower (Directory.addressOf place), place.1.verifier)

def mailboxFromRecord (record : ResourceRow) : Scim (IdentityMailbox × Text) := do
  let mailbox ← Effect.of (site.describe record)
  let (previousEmail, verifier) ← site.stored record mailbox
  let passwords ← ask ScimTransaction.passwords
  let change := passwords.lookup (recordPasswordKey record.scope record.resourceType record.id)
  return ({ mailbox with
    verifier := (change.map PasswordChange.verifier).getD verifier },
    previousEmail)

def mailboxRow (id domainID localPart : Text) (mailbox : IdentityMailbox)
    (resourceID : Text) : DirectoryMailbox :=
  ⟨id, domainID, localPart, mailbox.displayName, mailbox.active,
    mailbox.verifier, mailbox.updatedAt, some resourceID⟩

def persistAdopted (claim : LegacyMailboxAdoption) (mailbox : IdentityMailbox)
    (resourceID : Text) : Scim Unit := do
  let changed ← Scim.executeReturning fun db =>
    db.adoptMailbox claim.mailboxID (mailboxRow [] [] [] mailbox resourceID)
  guard (changed == 1) .conflict

/-- The identifier of the row that a resource writes. -/
def mailboxID (record : ResourceRow) (previousEmail : Text) : Scim Text := do
  if previousEmail = [] then
    return stableUUID (ascii "scim-mailbox:" ++ record.id)
  let found ← Scim.query fun db => db.mailboxes.rows.find? fun row =>
    row.scimResourceID == some record.id
  let row ← need found .noRows
  return row.id

/-- Write the mailbox of a resource under its address; a mailbox that is not
active loses its sessions, and a new address takes the app passwords along. -/
def persistOwned (record : ResourceRow) (previousEmail : Text)
    (mailbox : IdentityMailbox) (localPart domain : Text) : Scim Unit := do
  let id ← mailboxID record previousEmail
  let domainID ← Scim.executeReturning fun db =>
    db.resolveDomain (stableUUID (ascii "domain:" ++ domain)) domain
  Scim.execute fun db => db.upsertMailbox (mailboxRow id domainID localPart mailbox record.id)
  Scim.execute fun db => if mailbox.active then .ok db
    else db.revokeSessions record.id mailbox.updatedAt
  Scim.execute fun db =>
    if previousEmail = [] ∨ site.platform.equalFold previousEmail mailbox.email then
      .ok db
    else db.moveTokens site.locale mailbox.email previousEmail

def persistMailbox (record : ResourceRow) (previousEmail : Text)
    (mailbox : IdentityMailbox) : Scim Unit := do
  guard ((site.platform.parseAddress mailbox.email).any fun parsed =>
    parsed.address == mailbox.email) (.text "SCIM mailbox address is invalid")
  let parts ← need (cutAddress mailbox.email) (.text "SCIM mailbox address is invalid")
  let claim ← ask ScimTransaction.adoption
  match claim.filter fun claim => claim.consumed &&
      site.platform.equalFold previousEmail claim.mailbox with
  | some claim => persistAdopted claim mailbox record.id
  | none => site.persistOwned record previousEmail mailbox parts.1 parts.2

def audit (request : ScimRequest) : Scim Unit :=
  guard (request.identity.isNone ||
      request.actor.type == ascii "scim_client" && request.actor.id != [])
    (.text "authenticated SCIM actor is required")

/-- Write the mailbox of a user and note it for the running service. -/
def projectUser (request : ScimRequest) (gate : IdentityGate)
    (record : ResourceRow) : Scim Unit := do
  let (mailbox, previousEmail) ← site.mailboxFromRecord record
  guard (gate.authorizes request.actor mailbox.email)
    (.protocol 403 "" "provisioning scope is not authorized")
  guard (gate.validateMailbox site.platform mailbox.email)
    (.protocol 400 "invalidValue" "userName violates mailbox policy")
  site.persistMailbox record previousEmail mailbox
  alter fun tx =>
    { tx with project := tx.project ++ [⟨previousEmail, mailbox⟩] }
  audit request

def projectRecord (request : ScimRequest) (record : ResourceRow) :
    Scim Unit := do
  if record.resourceType = groupType then
    site.replaceGroupMembers record
    audit request
  else
    match request.identity with
    | none => pure ()
    | some gate =>
      if record.resourceType = userType then
        site.projectUser request gate record
      else pure ()

def disableProjection (request : ScimRequest) (record : ResourceRow) (now : Time) : Scim Unit :=
  match request.identity with
  | none => pure ()
  | some gate =>
    if record.resourceType = userType then do
      let (mailbox, previousEmail) ← site.mailboxFromRecord record
      guard (gate.authorizes request.actor mailbox.email)
        (.protocol 403 "" "provisioning scope is not authorized")
      Scim.execute fun db => db.disableMailbox record.id now
      Scim.execute fun db => db.revokeSessions record.id now
      let disabled := { mailbox with active := false, updatedAt := now }
      alter fun tx =>
        { tx with project := tx.project ++ [⟨previousEmail, disabled⟩] }
    else pure ()

def create (request : ScimRequest) (record : ScimRecord) : Scim Unit := do
  guard (validateRecordShape record.toResourceRow) (.text "SCIM record shape is invalid")
  let claim ← ask ScimTransaction.adoption
  let owned ← Scim.query fun db => claim.isSome && record.resourceType == userType &&
      db.subjectOwned record.externalID
  guard (!owned) .conflict
  let reserved ← Scim.query fun db => db.reserved record.toResourceRow
  guard (!reserved) .tombstoned
  Scim.execute fun db => db.insertResource record.toResourceRow
  site.replaceIndexes record
  site.projectRecord request record.toResourceRow

def replace (request : ScimRequest) (record : ScimRecord)
    (expectedVersion : Text) : Scim Unit := do
  guard (validateRecordShape record.toResourceRow) (.text "SCIM record shape is invalid")
  let current ← get record.scope record.resourceType record.id
  guard (expectedVersion != [] && current.version == expectedVersion) .precondition
  guard (record.created == current.created && record.manager == current.manager)
    (.text "SCIM record creation time and manager are immutable")
  let bound ← Scim.query fun db => current.externalID != record.externalID &&
      db.refs.rows.any (db.boundTo record.id)
  guard (!bound) .conflict
  Scim.execute fun db => db.updateResource record.toResourceRow
  site.replaceIndexes record
  site.projectRecord request record.toResourceRow

/-- The tombstone that stands for a deleted resource. -/
def matchesDeleted (scope resourceType id : Text) (current : ResourceRow)
    (stone : Tombstone) : Bool :=
  stone.scope == scope && stone.resourceType == resourceType &&
    stone.id == id && stone.externalID == current.externalID &&
    stone.manager == current.manager && stone.version == current.version && stone.deletedAt != 0

def delete (request : ScimRequest) (scope resourceType id expectedVersion : Text)
    (stone : Tombstone) : Scim Unit := do
  let current ← get scope resourceType id
  guard (expectedVersion != [] && current.version == expectedVersion) .precondition
  guard (matchesDeleted scope resourceType id current.toResourceRow stone)
    (.text "SCIM tombstone does not match deleted resource")
  let member ← Scim.query fun db => resourceType == userType &&
    db.members.rows.any fun row => row.scope == scope && row.userID == id
  guard (!member) (.protocol 409 "" "User remains referenced by a Group")
  site.disableProjection request current.toResourceRow stone.deletedAt
  Scim.execute fun db => db.deleteResource scope resourceType id
  Scim.execute fun db => db.insertTombstone stone
  audit request

def setPassword (scope resourceType id password salt : Text) : Scim Text := do
  guard (scope != [] && resourceType == userType && id != [] && password != [])
    (.text "SCIM password target is invalid")
  guard (decide (8 ≤ password.length))
    (.protocol 400 "invalidValue" "password does not meet mailbox policy")
  let verifier := site.makeVerifier password salt
  let key := recordPasswordKey scope resourceType id
  alter fun tx =>
    { tx with passwords := (key, ⟨verifier, site.revision verifier⟩) :: tx.passwords }
  return site.revision verifier

def tombstones (scope resourceType : Text) : Scim (List Tombstone) :=
  Scim.query fun db => site.locale.collation.sortBy Tombstone.id
    (db.tombstones.rows.filter fun stone =>
      stone.scope == scope && stone.resourceType == resourceType)

end ScimSite

inductive ScimCall where
  | get (scope resourceType id : Text)
  | list (query : ScimSite.ScimQuery)
  | create (record : ScimRecord)
  | replace (record : ScimRecord) (expectedVersion : Text)
  | delete (scope resourceType id expectedVersion : Text) (stone : Tombstone)
  | tombstones (scope resourceType : Text)
  | setPassword (scope resourceType id password salt : Text)

/-- The calls that one callback makes, whatever it makes of their answers. -/
structure ScimBatch where
  request : ScimRequest
  claim : Option LegacyMailboxAdoption
  calls : List ScimCall

namespace ScimSite

variable (site : ScimSite)

def perform (request : ScimRequest) : ScimCall → Scim Unit
  | .get scope resourceType id => do
      let _ ← get scope resourceType id
      return ()
  | .list query => do
      let _ ← site.list query
      return ()
  | .create record => site.create request record
  | .replace record expectedVersion =>
    site.replace request record expectedVersion
  | .delete scope resourceType id expectedVersion stone =>
    site.delete request scope resourceType id expectedVersion stone
  | .tombstones scope resourceType => do
      let _ ← site.tombstones scope resourceType
      return ()
  | .setPassword scope resourceType id password salt => do
      let _ ← site.setPassword scope resourceType id password salt
      return ()

/-- The transaction after a sequence of calls. -/
def performAll (request : ScimRequest) (calls : List ScimCall)
    (tx : ScimTransaction) : ScimTransaction :=
  calls.foldl (fun tx call => (site.perform request call tx).2) tx

/-- A transaction at its first statement. -/
def begin (claim : Option LegacyMailboxAdoption) (db : Directory) :
    ScimTransaction :=
  ⟨db, false, [], [], claim.map fun claim => { claim with consumed := false }⟩

/-- What a transaction commits: its view, unless the database has refused a
statement or an adoption claim was left over. -/
def committed (tx : ScimTransaction) : Option Directory :=
  if tx.aborted || tx.adoption.any (fun claim => !claim.consumed) then none
  else some tx.view

/-- The database after a transaction whose callback has returned no error. -/
def transact (batch : ScimBatch) (db : Directory) : Option Directory :=
  committed (site.performAll batch.request batch.calls (begin batch.claim db))

end ScimSite

/-- The case of ASCII, and documents that hold a plus sign for an active user and
then the user name. -/
def plainScim : ScimSite where
  platform := asciiPlatform
  locale := byteLocale
  decodeDocument data := .ok [(ascii "userName", .string data.tail),
    (ascii "active", .bool (data.head? == some 43))]
  makeVerifier secret salt := salt ++ secret
  revision verifier := verifier

/-- A client that may provision the mailboxes of one domain. -/
def plainClient : ScimRequest where
  actor := ⟨ascii "scim_client", ascii "client"⟩
  identity := some ⟨fun _ _ => true, fun domain => domain == ascii "x.test"⟩

def plainUser (id externalID document version : String) : ScimRecord where
  scope := ascii "s"
  resourceType := userType
  id := ascii id
  externalID := ascii externalID
  manager := []
  version := ascii version
  credentialVersion := []
  created := 1
  lastModified := 1
  data := ascii document
  indexes := []

/-- The call that deletes a user and leaves its tombstone. -/
def plainDelete (id externalID version : String) : ScimCall :=
  .delete (ascii "s") userType (ascii id) (ascii version)
    ⟨ascii "s", userType, ascii id, ascii externalID, [], ascii version, 2⟩

end GotthMail
