/-
Logins next to SCIM transactions.  A login reads the mailbox of its subject and
admits a session in statements that each see what is committed; a SCIM
transaction works on a snapshot and merges what it has written when it commits.
The journal of a world lists when each of them began and what it committed.
-/
import GotthMail.Interleaving
import GotthMail.ScimStore
import GotthMail.Snapshots

namespace GotthMail

open Bytes Relational Calls

structure OidcIdentity where
  subject : Text
  issuer : Text
  email : Text
deriving DecidableEq

structure Session where
  id : Text
  identityRefID : Text
  csrfSecretHash : Text
  authMethod : Text
  createdAt : Time
  expiresAt : Time
  lastSeenAt : Time
deriving DecidableEq

structure BoundSession extends Session where
  issuer : Text
  subject : Text
  mailbox : Text
deriving DecidableEq

structure LoginCandidate where
  mailboxID : Text
  email : Text
deriving DecidableEq

def Session.row (session : Session) : SessionRow where
  id := session.id
  identityRefID := session.identityRefID
  csrfSecretHash := session.csrfSecretHash
  authMethod := session.authMethod
  createdAt := session.createdAt
  expiresAt := session.expiresAt
  lastSeenAt := session.lastSeenAt
  revokedAt := none

def SessionRow.session (row : SessionRow) : Session where
  id := row.id
  identityRefID := row.identityRefID
  csrfSecretHash := row.csrfSecretHash
  authMethod := row.authMethod
  createdAt := row.createdAt
  expiresAt := row.expiresAt
  lastSeenAt := row.lastSeenAt

namespace Directory

variable (locale : Locale) (db : Directory)

/-- The users with an external identifier, joined with their enabled mailboxes. -/
def subjectPlaces (subject : Text) : List (ResourceRow × DirectoryMailbox × DirectoryDomain) :=
  db.resources.rows.flatMap fun resource => (db.located.filter fun place =>
      place.1.scimResourceID == some resource.id &&
        resource.resourceType == userType && resource.externalID == subject &&
        place.1.enabled).map fun place => (resource, place)

/-- The first two mailboxes of a subject. -/
def loginCandidates (subject : Text) : List LoginCandidate :=
  (((locale.collation.lex locale.collation).sortBy (fun found => (found.1.scope, found.1.id))
    (db.subjectPlaces subject)).take 2).map fun found =>
      ⟨found.2.1.id, locale.lower (addressOf found.2)⟩

/-- The reference of a subject: the one it has, or a new one. -/
def bindIdentity (ref : IdentityRef) : Except Error ((Text × Option Text) × Directory) :=
  match db.refs.rows.find? fun row => row.provider == ref.provider &&
      row.issuer == ref.issuer && row.subject == ref.subject with
  | some row => .ok ((row.id, row.mailboxID), db)
  | none =>
    if sized 1 2048 ref.issuer && sized 1 1024 ref.subject &&
        ref.mailboxID.all fun id => (db.mailboxes.find? id).isSome then
      match db.refs.insert ref >>= Constrained.accept with
      | none => .error .sql
      | some refs => .ok ((ref.id, ref.mailboxID), { db with refs := refs })
    else .error .sql

def insertSession (session : Session) : Except Error Directory :=
  if storable session.id && storable session.csrfSecretHash && storable session.authMethod &&
      (db.refs.find? session.identityRefID).isSome then
    match db.sessions.insert session.row with
    | none => .error .sql
    | some sessions => .ok { db with sessions := sessions }
  else .error .sql

/-- The statements that write a login.  The rows they write are locked until
the transaction ends, so that they can be taken to run when it commits; a
reference without a mailbox cannot be read back. -/
def admitSession (identityID : Text) (identity : OidcIdentity)
    (mailboxID : Text) (session : Session) :
    Except Error (Session × Directory) := do
  let ((refID, bound), db) ← db.bindIdentity
    ⟨identityID, .authentik, identity.issuer, identity.subject, some mailboxID⟩
  let some boundMailboxID := bound | .error .sql
  check (boundMailboxID == mailboxID) "verified OIDC identity is already bound to another mailbox"
  let session := { session with identityRefID := refID }
  let db ← db.insertSession session
  return (session, db)

/-- The rows behind a session that may still be used. -/
def sessionRows (id : Text) (now : Time) :
    Option (SessionRow × IdentityRef × DirectoryMailbox × DirectoryDomain) := do
  let session ← db.sessions.find? id
  let ref ← db.refs.find? session.identityRefID
  let mailboxID ← ref.mailboxID
  let mailbox ← db.mailboxes.find? mailboxID
  let domain ← db.domains.find? mailbox.domainID
  if session.revokedAt.isNone && decide (now < session.expiresAt) &&
      decide (session.createdAt ≤ now) && mailbox.enabled then
    some (session, ref, mailbox, domain)
  else none

def boundSession (id : Text) (now : Time) : Option BoundSession :=
  if id = [] then none
  else (db.sessionRows id now).map fun (session, ref, place) =>
    { session.session with
      issuer := ref.issuer
      subject := ref.subject
      mailbox := locale.lower (addressOf place) }

/-- What is there after a transaction on a snapshot has committed. -/
def merge (base mine current : Directory) : Option Directory := do
  let domains ← Constrained.merge base.domains mine.domains current.domains
  let mailboxes ← Constrained.merge base.mailboxes mine.mailboxes current.mailboxes
  let tokens ← Constrained.merge base.tokens mine.tokens current.tokens
  let resources ← Table.merge base.resources mine.resources current.resources
  let tombstones ← Constrained.merge base.tombstones mine.tombstones current.tombstones
  let contracts ← Table.merge base.contracts mine.contracts current.contracts
  let indexes ← Table.merge base.indexes mine.indexes current.indexes
  let members ← Table.merge base.members mine.members current.members
  let refs ← Constrained.merge base.refs mine.refs current.refs
  let sessions ← Table.merge base.sessions mine.sessions current.sessions
  return ⟨domains, mailboxes, tokens, resources, tombstones, contracts, indexes,
    members, refs, sessions⟩

end Directory

inductive AccountCall where
  | enter
  | resolve (subject : Text)
  | randomUUID
  | admitLogin (identityID : Text) (identity : OidcIdentity) (mailboxID : Text) (session : Session)
  | begin
  | commit (base view : Directory)
  | rollback

@[reducible] def AccountCall.Answer : AccountCall → Type
  | .resolve _ => Except Error (List LoginCandidate)
  | .randomUUID => Except Error Text
  | .admitLogin _ _ _ _ => Except Error Session
  | .begin => Except Error Directory
  | .rollback => Unit
  | _ => Except Error Unit

@[reducible] def accountInterface : Signature := ⟨AccountCall, AccountCall.Answer⟩

deriving instance DecidableEq for Directory

/-- What has happened to the database. -/
inductive AccountEntry where
  | entered (login : Thread)
  | admitted (login : Thread) (subject mailboxID : Text) (session : Session)
  | began (transaction : Thread)
  | committed (transaction : Thread) (base after : Directory)
deriving DecidableEq

/-- The database, the SCIM transaction that is under way with its snapshot, and
what has happened, the newest entry first. -/
structure AccountWorld where
  db : Directory
  holder : Option (Thread × Directory)
  journal : List AccountEntry

namespace AccountWorld

variable (locale : Locale) (thread : Thread) (world : AccountWorld)

/-- A database at which nothing has happened yet. -/
def fresh (db : Directory) : AccountWorld := ⟨db, none, []⟩

/-- Nobody else's transaction ends with a thread. -/
def release : AccountWorld :=
  { world with
    holder := world.holder.filter fun holder => decide (holder.1 ≠ thread) }

def enter : AccountWorld :=
  { world with journal := .entered thread :: world.journal }

def snapshot : AccountWorld :=
  { world with
    holder := some (thread, world.db)
    journal := .began thread :: world.journal }

def admitLogin (subject mailboxID : Text) (session : Session) (db : Directory) :
    AccountWorld :=
  { world with
    db := db
    journal := .admitted thread subject mailboxID session :: world.journal }

def install (base db : Directory) : AccountWorld where
  db := db
  holder := none
  journal := .committed thread base db :: world.journal

/-- What a statement does.  SCIM transactions wait for each other; every
statement may fail, and an error at a commit may hide that it has taken
effect. -/
def Does : (call : AccountCall) → call.Answer → AccountWorld → Prop
  | .enter, answer, after =>
    (answer = .ok () ∧ after = world.enter thread) ∨
    (answer = .error .sql ∧ after = world)
  | .resolve subject, answer, after =>
    after = world ∧ (answer = .ok (world.db.loginCandidates locale subject) ∨ answer = .error .sql)
  | .randomUUID, _, after => after = world
  | .admitLogin identityID identity mailboxID session, answer, after =>
    (∃ stored db, world.db.admitSession identityID identity mailboxID session = .ok (stored, db) ∧
      after = world.admitLogin thread identity.subject mailboxID stored db ∧
      (answer = .ok stored ∨ answer = .error .sql)) ∨
    (after = world ∧ ∃ reason, answer = .error reason ∧ (reason = .sql ∨
      world.db.admitSession identityID identity mailboxID session = .error reason))
  | .begin, answer, after =>
    (world.holder = none ∧ answer = .ok world.db ∧ after = world.snapshot thread) ∨
    (answer = .error .sql ∧ after = world)
  | .commit base view, answer, after =>
    (world.holder = some (thread, base) ∧ (∃ db, Directory.merge base view world.db = some db ∧
        after = world.install thread base db) ∧
      (answer = .ok () ∨ answer = .error .sql)) ∨
    (answer = .error .sql ∧ after = world.release thread)
  | .rollback, _, after => after = world.release thread

end AccountWorld

/-- A thread that stops has its transaction rolled back. -/
@[reducible] def accountMachine (locale : Locale) : Machine accountInterface AccountWorld where
  performs thread world := world.Does locale thread
  exits thread world := world.release thread

abbrev AccountService (α : Type) := Calls.Task accountInterface Error α

def askAccounts (call : AccountCall) : Program accountInterface call.Answer :=
  Program.perform (S := accountInterface) call

def onlyCandidate : List LoginCandidate → Except Error LoginCandidate
  | [candidate] => .ok candidate
  | _ => .error (.text "verified OIDC identity does not resolve to exactly one active SCIM mailbox")

def putIdentitySession (p : Platform) (identity : OidcIdentity)
    (session : Session) : AccountService Session := do
  Task.of (check (trimSpace identity.issuer != [] &&
    trimSpace identity.subject != [] && trimSpace identity.email != [])
    "verified OIDC identity is incomplete")
  Task.attempt (askAccounts .enter)
  let candidates ← Task.attempt (askAccounts (.resolve identity.subject))
  let candidate ← Task.of (onlyCandidate candidates)
  Task.of (check (p.equalFold candidate.email (trimSpace identity.email))
    "verified OIDC email does not match the SCIM mailbox")
  let identityID ← Task.attempt (askAccounts .randomUUID)
  Task.attempt (askAccounts (.admitLogin identityID identity candidate.mailboxID session))

/-- A SCIM transaction whose callback makes the calls of a batch. -/
def transactBatch (site : ScimSite) (batch : ScimBatch) : AccountService Unit := do
  let base ← Task.attempt (askAccounts .begin)
  match site.transact batch base with
  | none =>
    Task.observe (askAccounts .rollback)
    Task.of (.error .sql)
  | some view => Task.attempt (askAccounts (.commit base view))

inductive AccountJob where
  | login (identity : OidcIdentity) (session : Session)
  | provision (batch : ScimBatch)

def AccountJob.program (site : ScimSite) : AccountJob → Program accountInterface Unit
  | .login identity session => do
      let _ ← (putIdentitySession site.platform identity session).run
      return ()
  | .provision batch => do
      let _ ← (transactBatch site batch).run
      return ()

def AccountWorld.respond (locale : Locale) (thread : Thread) (world : AccountWorld) :
    (call : AccountCall) → call.Answer × AccountWorld
  | .enter => (.ok (), world.enter thread)
  | .resolve subject => (.ok (world.db.loginCandidates locale subject), world)
  | .randomUUID => (.ok (ascii "ref"), world)
  | .admitLogin identityID identity mailboxID session =>
    match world.db.admitSession identityID identity mailboxID session with
    | .ok (stored, db) =>
      (.ok stored, world.admitLogin thread identity.subject mailboxID stored db)
    | .error reason => (.error reason, world)
  | .begin =>
    if world.holder = none then (.ok world.db, world.snapshot thread)
    else (.error .sql, world)
  | .commit base view =>
    match Directory.merge base view world.db with
    | some db =>
      if world.holder = some (thread, base) then
        (.ok (), world.install thread base db)
      else (.error .sql, world.release thread)
    | none => (.error .sql, world.release thread)
  | .rollback => ((), world.release thread)

theorem AccountWorld.respond_does (locale : Locale) (thread : Thread)
    (world : AccountWorld) (call : AccountCall) :
    world.Does locale thread call (world.respond locale thread call).1
      (world.respond locale thread call).2 := by
  cases call with
  | enter => exact .inl ⟨rfl, rfl⟩
  | resolve subject => exact ⟨rfl, .inl rfl⟩
  | randomUUID => rfl
  | admitLogin identityID identity mailboxID session =>
    dsimp only [respond]
    split
    · next stored db haccept => exact .inl ⟨stored, db, haccept, rfl, .inl rfl⟩
    · next reason haccept => exact .inr ⟨rfl, reason, rfl, .inr haccept⟩
  | begin =>
    dsimp only [respond]
    split
    · next hfree => exact .inl ⟨hfree, rfl, rfl⟩
    · exact .inr ⟨rfl, rfl⟩
  | commit base view =>
    dsimp only [respond]
    split
    · next db hmerge =>
        split
        · next hholder => exact .inl ⟨hholder, ⟨db, hmerge, rfl⟩, .inl rfl⟩
        · exact .inr ⟨rfl, rfl⟩
    · exact .inr ⟨rfl, rfl⟩
  | rollback => rfl

/-- The programs that are left after a schedule, and the moment. -/
abbrev AccountRun := (Thread → Program accountInterface Unit) × Moment accountInterface AccountWorld

def AccountRun.pool (run : AccountRun) : Pool accountInterface AccountWorld :=
  ⟨run.2, fun thread => some (run.1 thread)⟩

def Directory.scheduled (start : Directory) (site : ScimSite)
    (jobs : Thread → AccountJob) (schedule : List (Thread × Nat)) : AccountRun :=
  follow (fun thread state call => ((state.world.respond site.locale thread call).1,
        ⟨(state.world.respond site.locale thread call).2,
          ⟨thread, call, (state.world.respond site.locale thread call).1⟩ :: state.history⟩))
    schedule (fun thread => (jobs thread).program site) ⟨.fresh start, []⟩

theorem Directory.scheduled_reachable (start : Directory) (site : ScimSite)
    (jobs : Thread → AccountJob) (schedule : List (Thread × Nat)) :
    (accountMachine site.locale).Reachable (.fresh start) (fun thread => (jobs thread).program site)
      (start.scheduled site jobs schedule).pool :=
  steps_of_follow id
    (fun thread state call => ⟨state.world.respond_does site.locale thread call, rfl⟩) schedule _ _

end GotthMail
