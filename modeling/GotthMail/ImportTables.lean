/-
The application of an import to the database.  Domains, mailboxes and aliases
are inserted or changed in place, relays are replaced, all in one transaction;
the state is loaded and verified before it and after it.
-/
import GotthMail.Import
import GotthMail.Upserts

namespace GotthMail

open Bytes Ranges Relational Effect

structure DomainEntry where
  id : Text
  name : Text
  enabled : Bool
  createdAt : Time
  updatedAt : Time
deriving DecidableEq

/-- A row of the mailboxes, whose contents are a verifier that may be null, or of
the aliases, whose contents are the text of their targets. -/
structure AddressEntry where
  id : Text
  domainID : Text
  localPart : Text
  enabled : Bool
  contents : Option Text
  createdAt : Time
  updatedAt : Time
deriving DecidableEq

structure RelayEntry where
  id : Text
  domainID : Option Text
  name : Text
  target : Text
  enabled : Bool
  createdAt : Time
  updatedAt : Time
deriving DecidableEq

def AddressEntry.place (row : AddressEntry) : Text × Text := (row.domainID, row.localPart)

def RelayEntry.route (row : RelayEntry) : Text × Text := (row.name, row.target)

/-- Domain names are unique. -/
abbrev DomainEntries := Constrained DomainEntry DomainEntry.id fun rows =>
  decide (rows.map DomainEntry.name).Nodup

/-- No two rows share their domain and local part. -/
abbrev AddressEntries := Constrained AddressEntry AddressEntry.id fun rows =>
  decide (rows.map AddressEntry.place).Nodup

structure MailTables where
  domains : DomainEntries
  mailboxes : AddressEntries
  aliases : AddressEntries
  relays : Table RelayEntry RelayEntry.id

def MailTables.empty : MailTables :=
  ⟨⟨.empty, by decide⟩, ⟨.empty, by decide⟩, ⟨.empty, by decide⟩, .empty⟩

namespace MailTables

variable (id : Text) (now : Time) (tables : MailTables)

def upsertDomain (name : Text) : Option MailTables := do
  let domains ← tables.domains.upsert DomainEntry.name ⟨id, name, true, now, now⟩
    (fun row => { row with enabled := true, updatedAt := now }) (fun _ => rfl)
  return { tables with domains := domains }

/-- The statement that mailboxes and aliases share. -/
def upsertAddress (row : AddressEntry) (table : AddressEntries) :
    Option AddressEntries :=
  if storable row.localPart && row.contents.all storable then
    table.upsert AddressEntry.place row
      (fun old => { old with
        enabled := row.enabled
        contents := row.contents
        updatedAt := row.updatedAt }) (fun _ => rfl)
  else none

def upsertMailbox (domainID localPart verifier : Text) : Option MailTables := do
  let mailboxes ← upsertAddress
    ⟨id, domainID, localPart, true, nullString verifier, now, now⟩ tables.mailboxes
  return { tables with mailboxes := mailboxes }

def upsertAlias (domainID localPart targetsJSON : Text) : Option MailTables := do
  let aliases ← upsertAddress
    ⟨id, domainID, localPart, true, some targetsJSON, now, now⟩ tables.aliases
  return { tables with aliases := aliases }

def deleteRelays (name target : Text) : Option MailTables :=
  if storable name && storable target then
    some { tables with
      relays := tables.relays.keep fun row => row.route ≠ (name, target) }
  else none

def insertRelay (name target : Text) : Option MailTables := do
  let relays ← tables.relays.insert ⟨id, none, name, target, true, now, now⟩
  return { tables with relays := relays }

end MailTables

/-- What the database or the audit writer may refuse; the statements of the
transaction are counted.  The answer to a commit that took effect may be lost. -/
inductive ImportStep where
  | load
  | begin
  | statement (number : Nat)
  | commit
  | answer
  | reload
  | audit
deriving DecidableEq

/-- The transaction of an import: the tables as it sees them, the identifiers of
the domains it has asked for, and the number of its statements so far. -/
structure ImportTx where
  tables : MailTables
  domainIDs : Mapping Text Text
  step : Nat

/-- The database and the events that the audit writer has taken. -/
structure ImportWorld where
  tables : MailTables
  events : List AuditEntry

/-- A local part that is not empty, and the domain. -/
def splitAddress (address : Text) : Option (Text × Text) :=
  (cutAddress address).filter fun parts => parts.1 != []

section Loading

variable (p : Platform)

def rowAddress (tables : MailTables) (row : AddressEntry) : Option Text :=
  (tables.domains.find? row.domainID).map fun domain =>
    p.lower (row.localPart ++ atSign :: domain.name)

def loadDaemonServiceFromSQL (tables : MailTables) : Daemon where
  unavailable := false
  domains := fill ∅ (tables.domains.rows.map fun row => (p.lower row.name, ⟨row.name, row.enabled⟩))
  mailboxes := fill ∅ (tables.mailboxes.rows.filterMap fun row =>
    (rowAddress p tables row).map fun address =>
      (address, ⟨address, row.enabled, row.contents.getD []⟩))
  aliases := fill ∅ (tables.aliases.rows.filterMap fun row =>
    (rowAddress p tables row).map fun address => (address, ⟨address, row.enabled,
        (row.contents.bind p.decodeStrings).getD []⟩))
  appPasswordVerifiers := ∅
  audit := none

end Loading

namespace ImportSite

variable (site : ImportSite) (refuses : ImportStep → Bool) (now : Time)

def sqlFailure : Text := ascii "sql"

def execute (statement : Text → MailTables → Option MailTables) :
    Effect ImportTx Text Unit := do
  let tx ← Effect.ask fun tx => tx
  Effect.guard (!refuses (.statement tx.step)) sqlFailure
  let tables ← need (statement (site.newUUID tx.step) tx.tables) sqlFailure
  alter fun tx => { tx with tables := tables, step := tx.step + 1 }

def ensureDomain (domain : Text) : Effect ImportTx Text Text := do
  let name := site.normalizeName domain
  Effect.guard (validateDomainName site.platform name) (ascii "invalid import domain: " ++ name)
  let known ← Effect.ask fun tx => tx.domainIDs.lookup name
  match known with
  | some id => return id
  | none =>
    site.execute refuses fun id tables => tables.upsertDomain id now name
    let returned ← Effect.ask fun tx => tx.tables.domains.rows.find? fun row => row.name = name
    let row ← need returned sqlFailure
    alter fun tx => { tx with domainIDs := tx.domainIDs.insert name row.id }
    return row.id

def importDomain (candidate : MailuCandidate) : Effect ImportTx Text Unit :=
  if candidate.type = .domain then do
    let _ ← site.ensureDomain refuses now candidate.id
    return ()
  else return ()

def targetsJSON (candidate : MailuCandidate) : Text :=
  marshal (.array ((site.aliasTargets candidate).map .string))

def importCandidate (candidate : MailuCandidate) : Effect ImportTx Text Unit :=
  match candidate.type with
  | .user => do
      let (localPart, domain) ← need (splitAddress candidate.id)
        (ascii "invalid import mailbox: " ++ candidate.id)
      let domainID ← site.ensureDomain refuses now domain
      site.execute refuses fun id tables =>
        tables.upsertMailbox id now domainID localPart candidate.value
  | .alias => do
      let (localPart, domain) ← need (splitAddress candidate.id)
        (ascii "invalid import alias: " ++ candidate.id)
      let domainID ← site.ensureDomain refuses now domain
      site.execute refuses fun id tables =>
        tables.upsertAlias id now domainID localPart (site.targetsJSON candidate)
  | .relay =>
    if trimSpace candidate.value = [] then return ()
    else do
      site.execute refuses fun _ tables => tables.deleteRelays candidate.id candidate.value
      site.execute refuses fun id tables => tables.insertRelay id now candidate.id candidate.value
  | _ => return ()

/-- The statements of an application: first the domains, then the rest. -/
def importAll (preview : ImportPreview) : Effect ImportTx Text Unit := do
  preview.live.forM (site.importDomain refuses now)
  preview.live.forM (site.importCandidate refuses now)

def importTables (preview : ImportPreview) (tables : MailTables) :
    Except Text MailTables :=
  match site.importAll refuses now preview ⟨tables, ∅, 0⟩ with
  | (.ok _, tx) => .ok tx.tables
  | (.error reason, _) => .error reason

def allowed? (step : ImportStep) : Except Text Unit :=
  if refuses step then .error sqlFailure else .ok ()

/-- An application up to its commit. -/
def admitSQL (previews : ImportStore) (confirmation : ImportConfirmation)
    (tables : MailTables) : Except Text (ImportPreview × MailTables) := do
  let preview ← previews.find confirmation.id
  validateImportPreviewForApply preview confirmation now
  allowed? refuses .load
  let _ ← site.verifyAdoptedImportState preview (loadDaemonServiceFromSQL site.platform tables)
  allowed? refuses .begin
  let next ← site.importTables refuses (site.round now) preview tables
  allowed? refuses .commit
  return (preview, next)

/-- The commit of an application and what follows it. -/
def finishSQL (actor : ActorRef) (preview : ImportPreview) (next : MailTables) :
    Effect ImportWorld Text Unit := do
  alter fun world => { world with tables := next }
  Effect.guard (!refuses .answer) sqlFailure
  Effect.guard (!refuses .reload) sqlFailure
  let _ ← Effect.of (site.verifyAdoptedImportState preview
    (loadDaemonServiceFromSQL site.platform next))
  Effect.guard (!refuses .audit) (ascii "audit")
  alter fun world => { world with
    events := world.events ++ [importEntry actor preview] }

def applySQL (previews : ImportStore) (confirmation : ImportConfirmation) :
    Effect ImportWorld Text Unit := do
  let tables ← Effect.ask ImportWorld.tables
  let admitted ← Effect.of (site.admitSQL refuses now previews confirmation tables)
  site.finishSQL refuses confirmation.actor admitted.1 admitted.2

end ImportSite

section Atomicity

variable {site : ImportSite} {refuses : ImportStep → Bool} {now : Time}
  {confirmation : ImportConfirmation}

theorem execute_ok {tx after : ImportTx} {statement : Text → MailTables → Option MailTables}
    (hexecute : site.execute refuses statement tx = (.ok (), after)) :
    ∃ tables, statement (site.newUUID tx.step) tx.tables = some tables ∧
      after = { tx with tables := tables, step := tx.step + 1 } := by
  simp only [ImportSite.execute, Effect.bind_ok_iff, ask_ok_iff, guard_ok_iff,
    need_ok_iff, alter_ok_iff] at hexecute
  obtain ⟨_, _, ⟨rfl, rfl⟩, _, _, ⟨-, rfl⟩, tables, _, ⟨htables, rfl⟩, rfl⟩ := hexecute
  exact ⟨tables, htables, rfl⟩

/-- Once the maps are written an application ends with its event or fails. -/
theorem ImportStore.finish_outcome {writer : AuditWriter} {actor : ActorRef}
    {preview : ImportPreview} {service : Daemon} (memory : ImportMemory) :
    (ImportStore.finish writer actor preview service).Triple (· = memory)
      (fun _ after => after.events = memory.events ++ [importEntry actor preview])
      fun after => after.store = memory.store.writeAll service preview := by
  refine Triple.alter_bind (Triple.guard_bind ?_ fun _ => Triple.alter ?_)
  · rintro _ ⟨_, rfl, rfl⟩
    rfl
  · rintro _ ⟨_, rfl, rfl⟩
    rfl

/-- Once its tables are committed an application ends with its event or fails. -/
theorem ImportSite.finishSQL_outcome {actor : ActorRef} {preview : ImportPreview}
    {next : MailTables} (world : ImportWorld) :
    (site.finishSQL refuses actor preview next).Triple (· = world)
      (fun _ after => after = ⟨next, world.events ++ [importEntry actor preview]⟩)
      fun after => after.tables = next := by
  have hcommitted : ∀ state : ImportWorld,
      (∃ before, before = world ∧ { before with tables := next } = state) →
      state.tables = next := by
    rintro _ ⟨_, rfl, rfl⟩
    rfl
  refine Triple.alter_bind (Triple.guard_bind hcommitted fun _ =>
    Triple.guard_bind hcommitted fun _ => Triple.of_bind hcommitted fun _ _ =>
      Triple.guard_bind hcommitted fun _ => Triple.alter ?_)
  rintro _ ⟨_, rfl, rfl⟩
  rfl

theorem ImportStore.apply_outcome {writer : AuditWriter} {base : Daemon} (memory : ImportMemory) :
    (ImportStore.apply site writer confirmation now base).Triple (· = memory)
      (fun _ after => ∃ preview,
        after.events = memory.events ++ [importEntry confirmation.actor preview])
      fun after => (∃ reason, memory.store.admitMemory site confirmation now base = .error reason) ∧
            after = memory ∨
          ∃ preview service,
            memory.store.admitMemory site confirmation now base = .ok (preview, service) ∧
            after.store = memory.store.writeAll service preview := by
  refine Triple.ask_known (Triple.of_cases ?_ fun admitted hadmitted => ?_)
  · rintro reason hrefused _ rfl
    exact .inl ⟨⟨reason, hrefused⟩, rfl⟩
  · refine (finish_outcome memory).consequence (fun _ hstate => hstate)
      (fun _ _ hevents => ⟨_, hevents⟩) fun _ hwritten => ?_
    exact .inr ⟨admitted.1, admitted.2, hadmitted, hwritten⟩

theorem ImportSite.applySQL_outcome {previews : ImportStore} (world : ImportWorld) :
    (site.applySQL refuses now previews confirmation).Triple (· = world)
      (fun _ after => ∃ preview next, site.admitSQL refuses now previews confirmation world.tables =
            .ok (preview, next) ∧
          after = ⟨next, world.events ++ [importEntry confirmation.actor preview]⟩)
      fun after => (∃ reason, site.admitSQL refuses now previews confirmation world.tables =
            .error reason) ∧ after = world ∨
          ∃ preview next, site.admitSQL refuses now previews confirmation world.tables =
              .ok (preview, next) ∧ after.tables = next := by
  refine Triple.ask_known (Triple.of_cases ?_ fun admitted hadmitted => ?_)
  · rintro reason hrefused _ rfl
    exact .inl ⟨⟨reason, hrefused⟩, rfl⟩
  · refine (finishSQL_outcome world).consequence (fun _ hstate => hstate)
      (fun _ _ hreturned => ?_) fun _ hcommitted => ?_
    · exact ⟨admitted.1, admitted.2, hadmitted, hreturned⟩
    · exact .inr ⟨admitted.1, admitted.2, hadmitted, hcommitted⟩

end Atomicity

/-- A site whose sources are all one domain with one mailbox. -/
def plainImport : ImportSite where
  platform := asciiPlatform
  order := .stored Text
  decodeCandidates _ := some [.plain .domain (ascii "x.test") [],
    .plain .user (ascii "a@x.test") (ascii "v")]
  decodeExport _ := none
  formatNano _ := []
  newUUID number := Framing.decimal number
  round time := time

def plainActor : ActorRef := ⟨ascii "admin", ascii "root"⟩

/-- A preview of such a source under a short name. -/
def plainPreview : ImportPreview where
  id := ascii "imp_1"
  hash := ascii "1"
  sourceFingerprint := ascii "1"
  actorType := plainActor.type
  actorID := plainActor.id
  expiresAt := 1
  items := (plainImport.parseMailuImportCandidates []).map plainImport.itemOf
  candidates := plainImport.parseMailuImportCandidates []

def plainPreviews : ImportStore :=
  { newImportStore with
    previews := (∅ : Mapping Text ImportPreview).insert plainPreview.id plainPreview }

def plainConfirmation : ImportConfirmation :=
  ⟨plainActor, plainPreview.id, plainPreview.hash, plainPreview.sourceFingerprint⟩

/-- The preview applied in memory, where the audit writer may refuse the event. -/
def plainApplied (accepts : Bool) : Except Text Unit × ImportMemory :=
  ImportStore.apply plainImport ⟨accepts⟩ plainConfirmation 0 Daemon.fresh ⟨plainPreviews, []⟩

def plainAppliedSQL (refuses : ImportStep → Bool) : Except Text Unit × ImportWorld :=
  plainImport.applySQL refuses 0 plainPreviews plainConfirmation ⟨.empty, []⟩

end GotthMail
