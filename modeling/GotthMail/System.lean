/-
The parties around a queue file: the database with its advisory and table
locks, and the Postfix boundary, whose answers are arbitrary.  Every statement
or transaction is one call; it may fail, and a commit may take effect although
its caller sees an error.
-/
import GotthMail.Hold
import GotthMail.Interleaving

namespace GotthMail

open Bytes Relational Calls

structure QueueMetadata where
  queueID : Text
  arrivalFingerprint : Text
  envelopeSender : Text
  recipients : List Text
  held : Bool
deriving DecidableEq

/-- A transaction on domains, mailboxes, aliases or system senders; it leaves
the queue tables alone. -/
structure PolicyMutation where
  body : Database → Except Error (Unit × Database)
  messages : ∀ {db next u}, body db = .ok (u, next) → next.messages = db.messages
  recipients : ∀ {db next u}, body db = .ok (u, next) → next.recipients = db.recipients
  sources : ∀ {db next u}, body db = .ok (u, next) → next.sources = db.sources

/-- An administrator's request to change a scope. -/
structure ChangeRequest where
  actor : ActorRef
  correlationID : Text
  domain : Text
  requested : Scope
  confirmation : Text

inductive Call where
  | clock
  | lockQueue (key : Int)
  | unlockQueue (key : Int)
  | lockPolicy
  | endPolicy
  | readMessage (queueID : Text)
  | readRecipients (queueID : Text)
  | readSources (queueID : Text)
  | resolve (sources : List QueueSource)
  | mailboxObject (address : Text)
  | systemSender (id : Text)
  | writeAudit (event : AuditEvent)
  | register (now : Time) (input : QueueRegistration)
  | requireHold (mover : Mover) (decision : Decision)
  | startReconciliation (mover : Mover)
  | finishReconciliation (mover : Mover) (state : HoldState) (code : Text)
  | startRelease (mover : Mover)
  | finishRelease (mover : Mover) (state : HoldState) (code : Text)
  | applyChange (now : Time) (request : ChangeRequest)
  | mutate (mutation : PolicyMutation)
  | inspect (queueID : Text)
  | hold (queueID : Text)
  | release (queueID : Text)

@[reducible] def Call.Answer : Call → Type
  | .clock => Time
  | .unlockQueue _ => Except Error Unit
  | .endPolicy => Unit
  | .readMessage _ => Except Error (Option MessageRow)
  | .readRecipients _ => Except Error (List RecipientRow)
  | .readSources _ => Except Error (List SourceRow)
  | .resolve _ => Except Error (List GoverningDomain)
  | .mailboxObject _ => Except Error (Text × Text)
  | .systemSender _ => Except Error Text
  | .register _ _ => Except Error (QueueRecord × Bool)
  | .applyChange _ _ => Except Error ChangeResult
  | .inspect _ => Except Error QueueMetadata
  | _ => Except Error Unit

@[reducible] def interface : Signature := ⟨Call, Call.Answer⟩

namespace Database

variable (locale : Locale) (p : Platform)

def mailboxRows (localPart domain : Text) (db : Database) : List (Uuid × Text) :=
  (byteOrder.sortBy (fun row : Uuid × Text => row.1.text) (db.mailboxes.rows.filterMap fun row =>
      if locale.lower row.localPart = locale.lower localPart ∧ row.enabled = true ∧
          (db.domains.find? row.domainID).any fun found =>
            decide (found.name = domain) && found.enabled
      then some (row.id, row.localPart) else none)).take 2

def mailboxObjectByAddress (rawAddress : Text) (db : Database) :
    Except Error (Text × Text) := do
  let (address, domain) ← require (p.normalizeQueueRecipient rawAddress).toOption
    "invalid authenticated mailbox"
  let localPart := address.take ((lastIndexByte address atSign).getD 0)
  match db.mailboxRows locale localPart domain with
  | [(id, storedLocal)] =>
    return (p.lower storedLocal ++ atSign :: domain, id.text)
  | _ => throw (.text "authenticated mailbox is missing or ambiguous")

/-- An event on its own. -/
def auditTx (event : AuditEvent) (db : Database) :
    Except Error (Unit × Database) := do
  let next ← db.writeAudit event
  return ((), next)

def systemSenderAddress (id : Text) (db : Database) : Except Error Text := do
  check (validQueueObjectID id) "invalid system sender identity"
  let row ← require ((db.systemSenders.find? id).filter fun row =>
      row.enabled && (db.domains.find? row.domainID).any fun found =>
        found.enabled) "system sender identity not found"
  check (match p.normalizeQueueRecipient row.address with
      | .ok (canonical, _) => decide (canonical = row.address)
      | .error _ => false) "stored system sender identity is invalid"
  return row.address

end Database

structure World where
  db : Database
  queueLocks : Int → Option Thread
  policyLocks : Thread → Bool

namespace World

/-- A query: one reading of the database, or an error of the driver. -/
def Reads {α : Type} (world : World) (query : Database → Except Error α)
    (answer : Except Error α) (after : World) : Prop :=
  after = world ∧ (answer = query world.db ∨ answer = .error .sql)

/-- A transaction: it commits, or it fails and changes nothing.  The answer to
a commit can be lost. -/
def Commits {α : Type} (world : World)
    (body : Database → Except Error (α × Database)) (answer : Except Error α)
    (after : World) : Prop :=
  (∃ value next, body world.db = .ok (value, next) ∧ after = { world with db := next } ∧
      (answer = .ok value ∨ answer = .error .sql)) ∨
    (after = world ∧ ∃ reason, answer = .error reason)

theorem Reads.ok {α : Type} {world after : World} {query : Database → Except Error α} {value : α}
    (hreads : world.Reads query (.ok value) after) : query world.db = .ok value := by
  rcases hreads.2 with hquery | herror
  · exact hquery.symm
  · cases herror

/-- The table locks of a write wait for every share lock to end. -/
def Unshared (world : World) : Prop := ∀ thread, world.policyLocks thread = false

end World

section Machine

variable (locale : Locale) (p : Platform)

def ChangeRequest.transaction (now : Time) (request : ChangeRequest)
    (db : Database) : Except Error (ChangeResult × Database) :=
  db.applyChangeTx locale p now request.actor request.correlationID
    request.domain request.requested request.confirmation

/-- What a call of a thread does. -/
def performs (thread : Thread) (world : World) : (call : Call) → call.Answer → World → Prop
  | .clock, _, after => after = world
  | .lockQueue key, answer, after =>
    (answer = .ok () ∧ world.queueLocks key = none ∧
      after = { world with
        queueLocks := Function.update world.queueLocks key (some thread) }) ∨
      (after = world ∧ ∃ reason, answer = .error reason)
  | .unlockQueue key, _, after =>
    after = { world with
      queueLocks :=
        if world.queueLocks key = some thread then
          Function.update world.queueLocks key none
        else world.queueLocks }
  | .lockPolicy, answer, after =>
    (answer = .ok () ∧ after = { world with
      policyLocks := Function.update world.policyLocks thread true }) ∨
      (after = world ∧ ∃ reason, answer = .error reason)
  | .endPolicy, _, after =>
    after = { world with
      policyLocks := Function.update world.policyLocks thread false }
  | .readMessage queueID, answer, after =>
    world.Reads (fun db => .ok (db.messages.find? queueID)) answer after
  | .readRecipients queueID, answer, after =>
    world.Reads (fun db => .ok (db.queueRecipients locale queueID)) answer after
  | .readSources queueID, answer, after =>
    world.Reads (fun db => .ok (db.queueSources locale queueID)) answer after
  | .resolve sources, answer, after =>
    world.Reads (fun db => p.resolvePolicySources db sources) answer after
  | .mailboxObject address, answer, after =>
    world.Reads (fun db => db.mailboxObjectByAddress locale p address) answer after
  | .systemSender id, answer, after =>
    world.Reads (fun db => db.systemSenderAddress p id) answer after
  | .writeAudit event, answer, after =>
    world.Commits (Database.auditTx event) answer after
  | .register now input, answer, after =>
    world.Commits (Database.registerTx locale p now input) answer after
  | .requireHold mover decision, answer, after =>
    world.Commits (Database.requireHoldTx locale p mover decision) answer after
  | .startReconciliation mover, answer, after =>
    world.Commits (Database.startQueueReconciliation locale mover) answer after
  | .finishReconciliation mover state code, answer, after =>
    world.Commits (Database.finishQueueReconciliation locale mover state code) answer after
  | .startRelease mover, answer, after =>
    world.Commits (Database.startQueueRelease locale mover) answer after
  | .finishRelease mover state code, answer, after =>
    world.Commits (Database.finishQueueRelease locale mover state code) answer after
  | .applyChange now request, answer, after =>
    (world.Unshared ∧ world.Commits (request.transaction locale p now) answer after) ∨
      (after = world ∧ ∃ reason, answer = .error reason)
  | .mutate mutation, answer, after =>
    (world.Unshared ∧ world.Commits mutation.body answer after) ∨
      (after = world ∧ ∃ reason, answer = .error reason)
  | .inspect _, _, after => after = world
  | .hold _, _, after => after = world
  | .release _, _, after => after = world

/-- A session that ends gives up its locks. -/
def exits (thread : Thread) (world : World) : World :=
  { world with
    queueLocks := fun key =>
      if world.queueLocks key = some thread then none else world.queueLocks key
    policyLocks := Function.update world.policyLocks thread false }

@[reducible] def machine : Machine interface World where
  performs := performs locale p
  exits := exits

end Machine

/-- A world with a working database, and the queue files that Postfix has. -/
structure Site where
  world : World
  files : Text → Option QueueMetadata

namespace Site

variable (locale : Locale) (p : Platform) (now : Time) (thread : Thread)

def reads {α : Type} (site : Site) (query : Database → Except Error α) : Except Error α × Site :=
  (query site.world.db, site)

def commits {α : Type} (site : Site)
    (body : Database → Except Error (α × Database)) : Except Error α × Site :=
  match body site.world.db with
  | .ok (value, next) =>
    (.ok value, { site with world := { site.world with db := next } })
  | .error reason => (.error reason, site)

/-- Postfix changes the hold of a queue file that it has. -/
def setHeld (site : Site) (queueID : Text) (held : Bool) : Except Error Unit × Site :=
  match site.files queueID with
  | none => (.error (.text "Postfix queue ID not found"), site)
  | some metadata =>
    (.ok (), { site with
      files := Function.update site.files queueID (some { metadata with held := held }) })

/-- Every call of a thread that is alone; policy writers wait. -/
def respond (site : Site) : (call : Call) → call.Answer × Site
  | .clock => (now, site)
  | .lockQueue key =>
    if site.world.queueLocks key = none then
      (.ok (), { site with world := { site.world with
        queueLocks := Function.update site.world.queueLocks key (some thread) } })
    else (.error .sql, site)
  | .unlockQueue key =>
    (.ok (), { site with world := { site.world with
      queueLocks :=
        if site.world.queueLocks key = some thread then
          Function.update site.world.queueLocks key none
        else site.world.queueLocks } })
  | .lockPolicy =>
    (.ok (), { site with world := { site.world with
      policyLocks := Function.update site.world.policyLocks thread true } })
  | .endPolicy =>
    ((), { site with world := { site.world with
      policyLocks := Function.update site.world.policyLocks thread false } })
  | .readMessage queueID => site.reads fun db => .ok (db.messages.find? queueID)
  | .readRecipients queueID =>
    site.reads fun db => .ok (db.queueRecipients locale queueID)
  | .readSources queueID =>
    site.reads fun db => .ok (db.queueSources locale queueID)
  | .resolve sources => site.reads fun db => p.resolvePolicySources db sources
  | .mailboxObject address =>
    site.reads fun db => db.mailboxObjectByAddress locale p address
  | .systemSender id => site.reads fun db => db.systemSenderAddress p id
  | .writeAudit event => site.commits (Database.auditTx event)
  | .register time input => site.commits (Database.registerTx locale p time input)
  | .requireHold mover decision =>
    site.commits (Database.requireHoldTx locale p mover decision)
  | .startReconciliation mover =>
    site.commits (Database.startQueueReconciliation locale mover)
  | .finishReconciliation mover state code =>
    site.commits (Database.finishQueueReconciliation locale mover state code)
  | .startRelease mover => site.commits (Database.startQueueRelease locale mover)
  | .finishRelease mover state code =>
    site.commits (Database.finishQueueRelease locale mover state code)
  | .applyChange _ _ => (.error .sql, site)
  | .mutate _ => (.error .sql, site)
  | .inspect queueID =>
    (require (site.files queueID) "Postfix queue metadata is unavailable", site)
  | .hold queueID => site.setHeld queueID true
  | .release queueID => site.setHeld queueID false

variable {locale p now thread}

theorem reads_performs {α : Type} (site : Site) (query : Database → Except Error α) :
    site.world.Reads query (site.reads query).1 (site.reads query).2.world :=
  ⟨rfl, .inl rfl⟩

theorem commits_performs {α : Type} (site : Site) (body : Database → Except Error (α × Database)) :
    site.world.Commits body (site.commits body).1 (site.commits body).2.world := by
  unfold commits
  cases hbody : body site.world.db with
  | error reason => exact .inr ⟨rfl, reason, rfl⟩
  | ok result => exact .inl ⟨result.1, result.2, hbody, rfl, .inl rfl⟩

theorem setHeld_world (site : Site) (queueID : Text) (held : Bool) :
    (site.setHeld queueID held).2.world = site.world := by
  unfold setHeld
  cases site.files queueID <;> rfl

/-- A working site is one of the behaviours of the machine. -/
theorem respond_performs (site : Site) (call : Call) :
    performs locale p thread site.world call (site.respond locale p now thread call).1
      (site.respond locale p now thread call).2.world := by
  cases call with
  | lockQueue key =>
    simp only [respond]
    split
    · next hfree => exact .inl ⟨rfl, hfree, rfl⟩
    · exact .inr ⟨rfl, _, rfl⟩
  | lockPolicy => exact .inl ⟨rfl, rfl⟩
  | applyChange => exact .inr ⟨rfl, _, rfl⟩
  | mutate => exact .inr ⟨rfl, _, rfl⟩
  | hold queueID => exact setHeld_world site queueID true
  | release queueID => exact setHeld_world site queueID false
  | clock | unlockQueue | endPolicy | inspect => rfl
  | readMessage | readRecipients | readSources | resolve | mailboxObject
  | systemSender => exact reads_performs site _
  | _ => exact commits_performs site _

end Site

/-- One domain, restricted to itself, with a system sender. -/
def noticeBase : Database :=
  { Database.empty with
    domains := ⟨[{
      id := firstUuid
      name := ascii "example.test"
      enabled := true
      scope := .sameDomainOnly
      revision := 1
      updatedAt := 1 }], List.nodup_singleton _⟩
    systemSenders := ⟨[{
      id := ascii "postmaster"
      domainID := firstUuid
      address := ascii "postmaster@example.test"
      enabled := true
      revision := 1 }], List.nodup_singleton _⟩ }

def noticeDatabase : Database :=
  (noticeBase.register byteLocale asciiPlatform 1 (noticeRegistration [ascii "a@example.test"])).2

def noticeSite : Site where
  world := ⟨noticeDatabase, fun _ => none, fun _ => false⟩
  files _ := none

end GotthMail
