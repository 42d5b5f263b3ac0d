/-
The tables behind accounts: domains, mailboxes, app passwords, SCIM resources
with their tombstones, and the sessions of single sign-on.  There is one
function for each statement that writes them, and a violated constraint is the
error of that statement.
-/
import GotthMail.Database
import GotthMail.Effect

namespace GotthMail

open Bytes Relational

inductive ScimError where
  | notFound
  | conflict
  | tombstoned
  | precondition
  | tooMany
  | protocol (status : Nat) (scimType detail : String)
  | text (message : String)
  | noRows
  | sql
deriving DecidableEq, Repr

structure DirectoryDomain where
  id : Text
  name : Text
  enabled : Bool
deriving DecidableEq

/-- An empty display name or verifier stands for a null column. -/
structure DirectoryMailbox where
  id : Text
  domainID : Text
  localPart : Text
  displayName : Text
  enabled : Bool
  verifier : Text
  updatedAt : Time
  scimResourceID : Option Text
deriving DecidableEq

inductive TokenKind where
  | api
  | appPassword
  | pluginService
  | scimClient
  | breakGlass
deriving DecidableEq

structure TokenRow where
  id : Text
  subjectType : Text
  subjectID : Text
  kind : TokenKind
  verifier : Text
  label : Text
  createdAt : Time
  revokedAt : Option Time
  publicID : Option Text
deriving DecidableEq

structure IndexKey where
  name : Text
  value : Text
  caseExact : Bool
  unique : Bool
deriving DecidableEq

structure ResourceRow where
  scope : Text
  resourceType : Text
  id : Text
  externalID : Text
  manager : Text
  version : Text
  credentialVersion : Text
  created : Time
  lastModified : Time
  data : Text
deriving DecidableEq

/-- A record of the SCIM library: a row with its index keys. -/
structure ScimRecord extends ResourceRow where
  indexes : List IndexKey
deriving DecidableEq

structure Tombstone where
  scope : Text
  resourceType : Text
  id : Text
  externalID : Text
  manager : Text
  version : Text
  deletedAt : Time
deriving DecidableEq

structure IndexContract where
  scope : Text
  resourceType : Text
  nameFolded : Text
  caseExact : Bool
  unique : Bool
deriving DecidableEq

structure IndexRow where
  scope : Text
  resourceType : Text
  resourceID : Text
  nameFolded : Text
  ordinal : Nat
  index : IndexKey
deriving DecidableEq

structure MemberRow where
  scope : Text
  groupID : Text
  userID : Text
deriving DecidableEq

inductive IdentityProvider where
  | authentik
  | inHouse
deriving DecidableEq

structure IdentityRef where
  id : Text
  provider : IdentityProvider
  issuer : Text
  subject : Text
  mailboxID : Option Text
deriving DecidableEq

structure SessionRow where
  id : Text
  identityRefID : Text
  csrfSecretHash : Text
  authMethod : Text
  createdAt : Time
  expiresAt : Time
  lastSeenAt : Time
  revokedAt : Option Time
deriving DecidableEq

/-- Domain names are unique. -/
abbrev Domains := Constrained DirectoryDomain DirectoryDomain.id fun rows =>
  decide (rows.map DirectoryDomain.name).Nodup

/-- No two mailboxes share their domain and local part, or their resource. -/
abbrev Mailboxes := Constrained DirectoryMailbox DirectoryMailbox.id fun rows =>
  decide (rows.map fun row => (row.domainID, row.localPart)).Nodup &&
    decide (rows.filterMap DirectoryMailbox.scimResourceID).Nodup

def TokenRow.contract (row : TokenRow) : Bool :=
  if row.kind = .appPassword then
    row.publicID.any (fun id => decide (5 ≤ characters id ∧ characters id ≤ 128)) &&
      decide (1 ≤ characters row.label ∧ characters row.label ≤ 128)
  else row.publicID.isNone

/-- Exactly the app passwords have public identifiers, and these are unique. -/
abbrev Tokens := Constrained TokenRow TokenRow.id fun rows => rows.all TokenRow.contract &&
    decide (rows.filterMap TokenRow.publicID).Nodup

/-- The external identifier that a resource type may use once in a scope. -/
def Tombstone.external? (row : Tombstone) : Option (Text × Text × Text) :=
  if row.externalID = [] then none
  else some (row.scope, row.resourceType, row.externalID)

abbrev Tombstones := Constrained Tombstone Tombstone.id fun rows =>
  decide (rows.filterMap Tombstone.external?).Nodup

def IdentityRef.bound? (row : IdentityRef) : Option Text :=
  if row.provider = .authentik then row.mailboxID else none

/-- One reference for a subject of an issuer, and one for a mailbox. -/
abbrev IdentityRefs := Constrained IdentityRef IdentityRef.id fun rows =>
  decide (rows.map fun row => (row.provider, row.issuer, row.subject)).Nodup &&
    decide (rows.filterMap IdentityRef.bound?).Nodup

structure Directory where
  domains : Domains
  mailboxes : Mailboxes
  tokens : Tokens
  resources : Table ResourceRow ResourceRow.id
  tombstones : Tombstones
  contracts : Table IndexContract fun row => (row.scope, row.resourceType, row.nameFolded)
  indexes : Table IndexRow fun row => (row.scope, row.resourceType, row.resourceID, row.nameFolded)
  members : Table MemberRow fun row => (row.scope, row.groupID, row.userID)
  refs : IdentityRefs
  sessions : Table SessionRow SessionRow.id

/-- The migrated database without rows. -/
def Directory.empty : Directory where
  domains := ⟨.empty, by decide⟩
  mailboxes := ⟨.empty, by decide⟩
  tokens := ⟨.empty, by decide⟩
  resources := .empty
  tombstones := ⟨.empty, by decide⟩
  contracts := .empty
  indexes := .empty
  members := .empty
  refs := ⟨.empty, by decide⟩
  sessions := .empty

def userType : Text := ascii "User"

def groupType : Text := ascii "Group"

namespace Directory

variable (db : Directory)

/-- The mailboxes joined with their domains. -/
def located : List (DirectoryMailbox × DirectoryDomain) :=
  db.mailboxes.rows.filterMap fun mailbox =>
    (db.domains.find? mailbox.domainID).map fun domain => (mailbox, domain)

variable {db} in
theorem mem_located {place : DirectoryMailbox × DirectoryDomain} :
    place ∈ db.located ↔ place.1 ∈ db.mailboxes.rows ∧
      db.domains.find? place.1.domainID = some place.2 := by
  simp only [located, List.mem_filterMap, Option.map_eq_some_iff]
  constructor
  · rintro ⟨mailbox, hmailbox, domain, hdomain, rfl⟩
    exact ⟨hmailbox, hdomain⟩
  · rintro ⟨hmailbox, hdomain⟩
    exact ⟨place.1, hmailbox, place.2, hdomain, rfl⟩

variable {db} in
theorem domain_of_located {place : DirectoryMailbox × DirectoryDomain}
    (hplace : place ∈ db.located) : place.2 ∈ db.domains.rows :=
  (Table.find?_eq_some_iff.mp (mem_located.mp hplace).2).1

/-- The text `local_part || '@' || name`. -/
def addressOf (place : DirectoryMailbox × DirectoryDomain) : Text :=
  place.1.localPart ++ atSign :: place.2.name

def resource? (scope resourceType id : Text) : Option ResourceRow :=
  db.resources.rows.find? fun row =>
    row.scope == scope && row.resourceType == resourceType && row.id == id

/-- What the tombstones keep from being created again. -/
def reserved (record : ResourceRow) : Bool :=
  db.tombstones.rows.any fun stone => stone.id == record.id ||
      (record.externalID != [] && stone.scope == record.scope &&
        stone.resourceType == record.resourceType && stone.externalID == record.externalID)

def subjectOwned (externalID : Text) : Bool :=
  db.resources.rows.any fun row => row.resourceType == userType && row.externalID == externalID

/-- Whether a reference is bound to the mailbox of a resource. -/
def boundTo (resourceID : Text) (ref : IdentityRef) : Bool :=
  ref.provider == .authentik && db.mailboxes.rows.any fun mailbox =>
    ref.mailboxID == some mailbox.id && mailbox.scimResourceID == some resourceID

/-- Between two lengths in characters. -/
def sized (least most : Nat) (text : Text) : Bool :=
  storable text && decide (least ≤ characters text ∧ characters text ≤ most)

def resourceChecks (row : ResourceRow) : Bool :=
  sized 1 1024 row.scope && sized 1 1024 row.resourceType &&
    sized 1 1024 row.id && sized 0 65536 row.externalID &&
    sized 0 1024 row.manager && sized 1 1024 row.version && sized 0 1024 row.credentialVersion &&
    decide (row.created ≤ row.lastModified) &&
    decide (1 ≤ row.data.length ∧ row.data.length ≤ 1048576)

def insertResource (row : ResourceRow) : Except ScimError Directory :=
  if resourceChecks row then
    match db.resources.insert row with
    | none => .error .conflict
    | some resources => .ok { db with resources := resources }
  else .error .sql

/-- The columns that a replacement sets. -/
def revise (record row : ResourceRow) : ResourceRow :=
  { row with
    externalID := record.externalID
    version := record.version
    credentialVersion := record.credentialVersion
    lastModified := record.lastModified
    data := record.data }

def revised (record : ResourceRow) : Table ResourceRow ResourceRow.id :=
  db.resources.update (fun row =>
    row.scope == record.scope && row.resourceType == record.resourceType &&
      row.id == record.id) (revise record) fun _ => rfl

def updateResource (record : ResourceRow) : Except ScimError Directory :=
  if (db.revised record).rows.all resourceChecks then
    .ok { db with resources := db.revised record }
  else .error .sql

/-- Index keys and a group's member rows go with the resource; a member row
that names a user keeps the user. -/
def deleteResource (scope resourceType id : Text) : Except ScimError Directory :=
  if resourceType == userType && db.members.rows.any (fun row =>
      row.scope == scope && row.userID == id) then
    .error (.protocol 409 "" "SCIM resource remains referenced by existing state")
  else
    .ok { db with
      resources := db.resources.keep fun row =>
        !(row.scope == scope && row.resourceType == resourceType && row.id == id)
      indexes := db.indexes.keep fun row =>
        !(row.scope == scope && row.resourceType == resourceType && row.resourceID == id)
      members := db.members.keep fun row =>
        !(resourceType == groupType && row.scope == scope && row.groupID == id) }

def tombstoneChecks (row : Tombstone) : Bool :=
  sized 1 1024 row.scope && sized 1 1024 row.resourceType &&
    sized 1 1024 row.id && sized 0 65536 row.externalID &&
    sized 0 1024 row.manager && sized 1 1024 row.version

def insertTombstone (row : Tombstone) : Except ScimError Directory :=
  if tombstoneChecks row then
    match db.tombstones.insert row >>= Constrained.accept with
    | none => .error .conflict
    | some tombstones => .ok { db with tombstones := tombstones }
  else .error .sql

/-- An existing contract stays as it is. -/
def declareContract (contract : IndexContract) : Except ScimError Directory :=
  match db.contracts.insert contract with
  | none => .ok db
  | some contracts => .ok { db with contracts := contracts }

def dropIndexes (record : ResourceRow) : Except ScimError Directory :=
  .ok { db with
    indexes := db.indexes.keep fun row =>
      !(row.scope == record.scope && row.resourceType == record.resourceType &&
        row.resourceID == record.id) }

/-- Another resource has the value of a unique index. -/
def clashes (locale : Locale) (row : IndexRow) : Bool :=
  row.index.unique && db.indexes.rows.any fun other =>
    other.index.unique && other.scope == row.scope && other.resourceType == row.resourceType &&
      other.nameFolded == row.nameFolded && other.index.caseExact == row.index.caseExact &&
      if row.index.caseExact then other.index.value == row.index.value
      else locale.lower other.index.value == locale.lower row.index.value

def insertIndex (locale : Locale) (row : IndexRow) :
    Except ScimError Directory :=
  if sized 1 1024 row.index.name && row.nameFolded == locale.lower row.index.name &&
      sized 1 65536 row.index.value then
    match db.indexes.insert row with
    | none => .error .conflict
    | some indexes =>
      if db.clashes locale row then .error .conflict
      else .ok { db with indexes := indexes }
  else .error .sql

def dropMembers (scope groupID : Text) : Except ScimError Directory :=
  .ok { db with
    members := db.members.keep fun row => !(row.scope == scope && row.groupID == groupID) }

/-- The member rows of a group, each of which refers to a user in the scope. -/
def insertMembers (scope groupID : Text) (users : List Text) :
    Except ScimError Directory :=
  if users.contains groupID then .error .sql
  else if users.all (fun id => (db.resource? scope userType id).isSome) then
    match db.members.insertAll (users.map fun id => ⟨scope, groupID, id⟩) with
    | none => .error .conflict
    | some members => .ok { db with members := members }
  else
    .error (.protocol 409 "" "SCIM resource remains referenced by existing state")

/-- The domain of a name, created enabled when there is none. -/
def resolveDomain (id name : Text) : Except ScimError (Text × Directory) :=
  match db.domains.rows.find? fun row => row.name == name with
  | some row => .ok (row.id, db)
  | none =>
    if storable name then
      match db.domains.insert ⟨id, name, true⟩ >>= Constrained.accept with
      | none => .error .sql
      | some domains => .ok (id, { db with domains := domains })
    else .error .sql

/-- The mailboxes with a new row, or with the new values in the row that has
its identifier. -/
def upserted (mailbox : DirectoryMailbox) : Table DirectoryMailbox DirectoryMailbox.id :=
  match db.mailboxes.insert mailbox with
  | some inserted => inserted
  | none =>
    db.mailboxes.update (fun row => row.id == mailbox.id)
      (fun row => { mailbox with id := row.id }) fun _ => rfl

def upsertMailbox (mailbox : DirectoryMailbox) : Except ScimError Directory :=
  if storable mailbox.localPart && storable mailbox.displayName && storable mailbox.verifier then
    match Constrained.accept (db.upserted mailbox) with
    | none => .error .conflict
    | some mailboxes => .ok { db with mailboxes := mailboxes }
  else .error .sql

def adopt (mailbox row : DirectoryMailbox) : DirectoryMailbox :=
  { row with
    displayName := mailbox.displayName
    enabled := mailbox.enabled
    verifier := mailbox.verifier
    updatedAt := mailbox.updatedAt
    scimResourceID := mailbox.scimResourceID }

def adoptable (id : Text) (row : DirectoryMailbox) : Bool :=
  row.id == id && row.scimResourceID.isNone

/-- Give an unowned mailbox its resource; the number of rows is one or none. -/
def adoptMailbox (id : Text) (mailbox : DirectoryMailbox) : Except ScimError (Nat × Directory) :=
  if storable mailbox.displayName && storable mailbox.verifier then
    match Constrained.accept (db.mailboxes.update (adoptable id) (adopt mailbox) fun _ => rfl) with
    | none => .error .conflict
    | some mailboxes =>
      .ok ((db.mailboxes.rows.filter (adoptable id)).length,
        { db with mailboxes := mailboxes })
  else .error .sql

def disableMailbox (resourceID : Text) (now : Time) :
    Except ScimError Directory :=
  match Constrained.accept (db.mailboxes.update (fun row => row.scimResourceID == some resourceID)
      (fun row => { row with enabled := false, updatedAt := now })
      fun _ => rfl) with
  | none => .error .sql
  | some mailboxes => .ok { db with mailboxes := mailboxes }

/-- The sessions of a resource that are still to be revoked. -/
def revocable (resourceID : Text) (row : SessionRow) : Bool :=
  row.revokedAt.isNone && db.refs.rows.any fun ref =>
    ref.id == row.identityRefID && db.boundTo resourceID ref

def revokeSessions (resourceID : Text) (now : Time) :
    Except ScimError Directory :=
  .ok { db with
    sessions := db.sessions.update (db.revocable resourceID)
      (fun row => { row with revokedAt := some now }) fun _ => rfl }

/-- Move the app passwords of one address to another. -/
def moveTokens (locale : Locale) (email previous : Text) :
    Except ScimError Directory :=
  match Constrained.accept (db.tokens.update (fun row =>
      row.kind == .appPassword && locale.lower row.subjectID == locale.lower previous)
      (fun row => { row with subjectID := email }) fun _ => rfl) with
  | none => .error .sql
  | some tokens => .ok { db with tokens := tokens }

section Statements

variable {db} {next : Directory} {row : ResourceRow} {stone : Tombstone}
  {mailbox : DirectoryMailbox} {locale : Locale} {resourceID : Text} {now : Time}

theorem insertResource_ok (hok : db.insertResource row = .ok next) :
    ∃ resources, db.resources.insert row = some resources ∧
      next = { db with resources := resources } := by
  unfold insertResource at hok
  split at hok
  · split at hok
    · cases hok
    · next resources hinsert =>
        cases hok
        exact ⟨resources, hinsert, rfl⟩
  · cases hok

theorem updateResource_ok (hok : db.updateResource row = .ok next) :
    next = { db with resources := db.revised row } := by
  unfold updateResource at hok
  split at hok
  · cases hok
    rfl
  · cases hok

theorem deleteResource_ok {scope resourceType id : Text}
    (hok : db.deleteResource scope resourceType id = .ok next) :
    ∃ indexes members, next = { db with
      resources := db.resources.keep fun row =>
        !(row.scope == scope && row.resourceType == resourceType && row.id == id)
      indexes := indexes
      members := members } := by
  unfold deleteResource at hok
  split at hok
  · cases hok
  · cases hok
    exact ⟨_, _, rfl⟩

theorem insertTombstone_ok (hok : db.insertTombstone stone = .ok next) :
    ∃ tombstones : Tombstones, next = { db with tombstones := tombstones } ∧
      tombstones.rows = db.tombstones.rows ++ [stone] := by
  unfold insertTombstone at hok
  split at hok
  · split at hok
    · cases hok
    · next tombstones hinsert =>
        cases hok
        obtain ⟨table, htable, haccept⟩ := Option.bind_eq_some_iff.mp hinsert
        refine ⟨tombstones, rfl, ?_⟩
        rw [Constrained.accept_eq_some_iff.mp haccept]
        exact (Table.insert_eq_some_iff.mp htable).2
  · cases hok

theorem declareContract_ok {contract : IndexContract}
    (hok : db.declareContract contract = .ok next) :
    ∃ contracts, next = { db with contracts := contracts } := by
  unfold declareContract at hok
  split at hok
  · cases hok
    exact ⟨db.contracts, rfl⟩
  · cases hok
    exact ⟨_, rfl⟩

theorem insertIndex_ok {index : IndexRow} (hok : db.insertIndex locale index = .ok next) :
    ∃ indexes, next = { db with indexes := indexes } := by
  unfold insertIndex at hok
  split at hok
  · split at hok
    · cases hok
    · split at hok
      · cases hok
      · cases hok
        exact ⟨_, rfl⟩
  · cases hok

theorem insertMembers_ok {scope groupID : Text} {users : List Text}
    (hok : db.insertMembers scope groupID users = .ok next) :
    ∃ members, next = { db with members := members } := by
  unfold insertMembers at hok
  split at hok
  · cases hok
  · split at hok
    · split at hok
      · cases hok
      · cases hok
        exact ⟨_, rfl⟩
    · cases hok

theorem upsertMailbox_ok (hok : db.upsertMailbox mailbox = .ok next) :
    ∃ mailboxes : Mailboxes, next = { db with mailboxes := mailboxes } ∧
      mailboxes.toTable = db.upserted mailbox := by
  unfold upsertMailbox at hok
  split at hok
  · split at hok
    · cases hok
    · next mailboxes haccept =>
        cases hok
        exact ⟨mailboxes, rfl, Constrained.accept_eq_some_iff.mp haccept⟩
  · cases hok

theorem adoptMailbox_ok {id : Text} {count : Nat}
    (hok : db.adoptMailbox id mailbox = .ok (count, next)) :
    count = (db.mailboxes.rows.filter (adoptable id)).length ∧
      ∃ mailboxes : Mailboxes, next = { db with mailboxes := mailboxes } ∧
        mailboxes.toTable = db.mailboxes.update (adoptable id) (adopt mailbox) fun _ => rfl := by
  unfold adoptMailbox at hok
  split at hok
  · split at hok
    · cases hok
    · next mailboxes haccept =>
        cases hok
        exact ⟨rfl, mailboxes, rfl, Constrained.accept_eq_some_iff.mp haccept⟩
  · cases hok

/-- An adoption that touches no row leaves the mailboxes as they were. -/
theorem adoptMailbox_idle {id : Text} {count : Nat}
    (hok : db.adoptMailbox id mailbox = .ok (count, next)) (hcount : count ≠ 1) :
    next = db := by
  obtain ⟨hlength, mailboxes, rfl, htable⟩ := adoptMailbox_ok hok
  have htouched : db.mailboxes.rows.filter (adoptable id) =
      db.mailboxes.matching id fun row => row.scimResourceID.isNone := by
    unfold Table.matching
    congr 1
    funext row
    simp [adoptable, beq_eq_decide]
  rw [htouched, Table.matching_eq] at hlength
  have hempty : ((db.mailboxes.find? id).filter fun row => row.scimResourceID.isNone) = none := by
    cases hfind : (db.mailboxes.find? id).filter fun row =>
        row.scimResourceID.isNone with
    | none => rfl
    | some row =>
      rw [hfind] at hlength
      exact absurd hlength hcount
  have hnone : ∀ row ∈ db.mailboxes.rows, ¬ adoptable id row = true := by
    rw [← List.filter_eq_nil_iff, htouched, Table.matching_eq, hempty]
    rfl
  have hrows : mailboxes = db.mailboxes := by
    apply Constrained.eq_of_rows_eq
    rw [htable]
    conv_rhs => rw [← List.map_id db.mailboxes.rows]
    apply List.map_congr_left
    intro row hrow
    simp [hnone row hrow]
  rw [hrows]

theorem disableMailbox_ok (hok : db.disableMailbox resourceID now = .ok next) :
    ∃ mailboxes : Mailboxes, next = { db with mailboxes := mailboxes } ∧
      mailboxes.rows = db.mailboxes.rows.map fun row =>
        if row.scimResourceID == some resourceID then
          { row with enabled := false, updatedAt := now }
        else row := by
  unfold disableMailbox at hok
  split at hok
  · cases hok
  · next mailboxes haccept =>
      cases hok
      refine ⟨mailboxes, rfl, ?_⟩
      rw [Constrained.accept_eq_some_iff.mp haccept]
      rfl

theorem moveTokens_ok {email previous : Text}
    (hok : db.moveTokens locale email previous = .ok next) :
    ∃ tokens : Tokens, next = { db with tokens := tokens } ∧
      tokens.rows = db.tokens.rows.map fun row =>
        if row.kind == .appPassword && locale.lower row.subjectID ==
          locale.lower previous then { row with subjectID := email }
        else row := by
  unfold moveTokens at hok
  split at hok
  · cases hok
  · next tokens haccept =>
      cases hok
      refine ⟨tokens, rfl, ?_⟩
      rw [Constrained.accept_eq_some_iff.mp haccept]
      rfl

/-- A domain is found under its name, or it is added with that name. -/
theorem resolveDomain_ok {id name found : Text}
    (hok : db.resolveDomain id name = .ok (found, next)) :
    ∃ domains : Domains, next = { db with domains := domains } ∧
      (domains = db.domains ∧ (∃ row ∈ db.domains.rows, row.name = name ∧ row.id = found) ∨
        domains.rows = db.domains.rows ++ [⟨found, name, true⟩]) := by
  unfold resolveDomain at hok
  split at hok
  · next row hfind =>
      cases hok
      have hname := List.find?_some hfind
      simp only [beq_iff_eq] at hname
      exact ⟨db.domains, rfl, .inl ⟨rfl, row, List.mem_of_find?_eq_some hfind, hname, rfl⟩⟩
  · split at hok
    · split at hok
      · cases hok
      · next domains hinsert =>
          cases hok
          obtain ⟨table, htable, haccept⟩ := Option.bind_eq_some_iff.mp hinsert
          refine ⟨domains, rfl, .inr ?_⟩
          rw [Constrained.accept_eq_some_iff.mp haccept]
          exact (Table.insert_eq_some_iff.mp htable).2
    · cases hok

end Statements

end Directory

end GotthMail
