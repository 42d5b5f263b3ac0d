/-
The supervisor of extension processes.  It starts the process of an instance,
asks it for its health, points the route at it and stops it; every access to
the map of processes is a step of its own, and a process may exit at any time.
-/
import GotthMail.ExtensionStore
import GotthMail.Interleaving

namespace GotthMail

open Bytes Framing Relational Calls

structure ExtensionProcess where
  handle : Nat
  subject : Instance
  secrets : List (Text × Text)

/-- The processes by instance, the instance with the route, and which of the
processes have exited or lost their connection. -/
structure Supervisor where
  processes : Text → Option ExtensionProcess
  active : Text
  launched : Nat
  exited : Nat → Bool
  closed : Nat → Bool

structure ExtensionWorld where
  db : ExtensionDB
  supervisor : Supervisor

/-- The instance that a transaction on the tables is about. -/
def ExtensionTransaction.subject (db : ExtensionDB) : ExtensionTransaction → Text
  | .install request => request.instanceID
  | .createPreview request => request.instanceID
  | .applyConfigure approval _ | .applyUpdate approval | .applyDeleteSecrets approval
  | .applyUninstall approval =>
    ((db.previews.find? approval.previewID).map PreviewRow.instanceID).getD []
  | .rollback id _ | .recordTest id _ _ | .recordEnable id _ _ | .recordDisable id _ =>
    id

/-- What a transaction answers, when it ran, and whether it was committed, which
its caller is not told. -/
structure TransactionReply where
  result : Except ExtensionError Text
  time : Time
  committed : Bool

inductive ExtensionAction where
  | readInstance (id : Text)
  | readSlots (id : Text)
  | readSecrets (id : Text) (slots : List Text)
  | random
  | transact (transaction : ExtensionTransaction)
  | checkContext
  | lookup (id : Text)
  | processExited (process : ExtensionProcess)
  | prepare (artifactPin : Text)
  | launch (subject : Instance) (secrets : List (Text × Text))
  | connect (process : ExtensionProcess)
  | register (process : ExtensionProcess)
  | handshake (process : ExtensionProcess) (subject : Instance)
  | admitRouting (id : Text)
  | revokeRouting (id : Text)
  | beginStop (id : Text)
  | terminate (process : ExtensionProcess)
  | remove (process : ExtensionProcess)
  | removeFiles (process : ExtensionProcess)
  | crash (handle : Nat)
  | leave (result : Except ExtensionError Unit)

def ExtensionAction.Answer : ExtensionAction → Type
  | .readInstance _ => Except ExtensionError Instance
  | .readSlots _ => Except ExtensionError (List Text)
  | .readSecrets _ _ => Except ExtensionError (List (Text × Text))
  | .random => Except ExtensionError (Text × Text)
  | .transact _ => TransactionReply
  | .lookup _ => Option ExtensionProcess
  | .processExited _ => Bool
  | .launch _ _ => Except ExtensionError ExtensionProcess
  | .register _ => Bool
  | .beginStop _ => Except ExtensionError (Option ExtensionProcess)
  | .remove _ | .crash _ | .leave _ => Unit
  | .checkContext | .prepare _ | .connect _ | .handshake _ _ | .admitRouting _
  | .revokeRouting _ | .terminate _ | .removeFiles _ => Except ExtensionError Unit

def extensionCalls : Signature := ⟨ExtensionAction, ExtensionAction.Answer⟩

abbrev ExtensionTask (α : Type) := Task extensionCalls ExtensionError α

def askExtensions (action : ExtensionAction) : Program extensionCalls action.Answer :=
  Program.perform (S := extensionCalls) action

namespace Supervisor

variable (supervisor : Supervisor)

def empty : Supervisor := ⟨fun _ => none, [], 0, fun _ => false, fun _ => false⟩

/-- The process that is started next. -/
def launch : Supervisor :=
  { supervisor with
    launched := supervisor.launched + 1
    exited := Function.update supervisor.exited supervisor.launched false
    closed := Function.update supervisor.closed supervisor.launched false }

def register (process : ExtensionProcess) : Supervisor :=
  { supervisor with
    processes := Function.update supervisor.processes process.subject.instanceID (some process) }

def exit (handle : Nat) : Supervisor :=
  { supervisor with exited := Function.update supervisor.exited handle true }

def close (handle : Nat) : Supervisor :=
  { supervisor with closed := Function.update supervisor.closed handle true }

def route (id : Text) : Supervisor := { supervisor with active := id }

/-- Delete a process from the map if it is still the one of its instance. -/
def remove (process : ExtensionProcess) : Supervisor :=
  if (supervisor.processes process.subject.instanceID).map ExtensionProcess.handle =
      some process.handle then
    { supervisor with
      processes := Function.update supervisor.processes process.subject.instanceID none }
  else supervisor

def admitRouting (id : Text) : Except ExtensionError Supervisor := do
  demand ((supervisor.processes id).any fun process =>
    !supervisor.exited process.handle) (.text "extension process unavailable")
  demand (supervisor.active == [] || supervisor.active == id) .conflict
  return supervisor.route id

def revokeRouting (id : Text) : Except ExtensionError Supervisor := do
  demand (supervisor.active == [] || supervisor.active == id) .conflict
  return supervisor.route []

def beginStop (id : Text) : Except ExtensionError (Option ExtensionProcess) := do
  demand (supervisor.active != id) .conflict
  return supervisor.processes id

end Supervisor

/-- An answer is the expected one, or the environment fails. -/
def Answers {α : Type} (expected answer : Except ExtensionError α) : Prop :=
  answer = expected ∨ ∃ reason, answer = .error reason

/-- An operation of the supervisor, which fails without an effect. -/
def Decides (world after : ExtensionWorld) (outcome : Except ExtensionError Supervisor)
    (answer : Except ExtensionError Unit) : Prop :=
  match outcome with
  | .ok supervisor => answer = .ok () ∧ after = { world with supervisor := supervisor }
  | .error reason => answer = .error reason ∧ after = world

/-- What a call may answer in a world, and the world after it. -/
def ExtensionSite.Performs (site : ExtensionSite) (world : ExtensionWorld) :
    (action : ExtensionAction) → action.Answer → ExtensionWorld → Prop
  | .readInstance id, answer, after =>
    Answers (site.findInstance world.db id) answer ∧ after = world
  | .readSlots id, answer, after =>
    Answers (.ok (world.db.configuredSlots id)) answer ∧ after = world
  | .readSecrets id slots, answer, after =>
    Answers (.ok (world.db.readSecrets id slots)) answer ∧ after = world
  | .transact transaction, reply, after =>
    -- The answer of a commit may be lost.
    (reply.committed = true ∧ Answers (.ok (transaction.subject world.db)) reply.result ∧
      ∃ next, site.execute reply.time world.db transaction = .ok next ∧
        after = { world with db := next }) ∨
    (reply.committed = false ∧ (∃ reason, reply.result = .error reason) ∧ after = world)
  | .lookup id, answer, after =>
    answer = world.supervisor.processes id ∧ after = world
  | .processExited process, answer, after =>
    answer = world.supervisor.exited process.handle ∧ after = world
  | .launch subject secrets, .ok process, after =>
    process = ⟨world.supervisor.launched, subject, secrets⟩ ∧
      after = { world with supervisor := world.supervisor.launch }
  | .register process, .true, after =>
    world.supervisor.processes process.subject.instanceID = none ∧
      after = { world with supervisor := world.supervisor.register process }
  | .register process, .false, after =>
    world.supervisor.processes process.subject.instanceID ≠ none ∧ after = world
  | .handshake process _, answer, after =>
    (answer = .ok () → world.supervisor.exited process.handle = false ∧
      world.supervisor.closed process.handle = false) ∧ after = world
  | .admitRouting id, answer, after =>
    Decides world after (world.supervisor.admitRouting id) answer
  | .revokeRouting id, answer, after =>
    Decides world after (world.supervisor.revokeRouting id) answer
  | .beginStop id, answer, after =>
    answer = world.supervisor.beginStop id ∧ after = world
  | .terminate process, .ok (), after =>
    after = { world with
      supervisor := (world.supervisor.close process.handle).exit process.handle }
  | .terminate process, .error _, after =>
    world.supervisor.exited process.handle = false ∧
      after = { world with supervisor := world.supervisor.close process.handle }
  | .remove process, _, after =>
    after = { world with supervisor := world.supervisor.remove process }
  | .crash handle, _, after =>
    after = { world with supervisor := world.supervisor.exit handle }
  | _, _, after => after = world

/-- The runtime contract of the only extension that the supervisor runs. -/
def runtimeSlot : Text := ascii "webhook.hmac-key"

def runtimeCapabilities : List Text :=
  [ascii "notification.alert.send", ascii "notification.alert.sink",
    ascii "notification.delivery.status"]

/-- An integer as the supervisor reads it. -/
def integer : JsonValue → Option Int
  | .number literal => atoi literal
  | _ => none

def integerDefault (value : Option JsonValue) (expected : Int) : Bool :=
  value.bind integer == some expected

def validRuntimeMetadata (metadata : ExtensionMetadata) : Bool :=
  match metadata.fields with
  | [endpoint, timeout, secret] =>
    metadata.schema == metadataSchema && endpoint.name == ascii "webhook.endpoint" &&
      endpoint.label == ascii "HTTPS webhook endpoint" &&
      endpoint.kind == .string && endpoint.required &&
      endpoint.min == some 1 && endpoint.max == some 2048 &&
      timeout.name == ascii "webhook.timeout-seconds" &&
      timeout.label == ascii "Request timeout in seconds" &&
      timeout.kind == .integer && timeout.required &&
      timeout.min == some 1 && timeout.max == some 30 &&
      integerDefault timeout.default 10 &&
      secret.name == runtimeSlot && secret.label == ascii "Webhook HMAC key" &&
      secret.kind == .secret && secret.required
  | _ => false

def validateInstance (subject : Instance) (secrets : List (Text × Text)) :
    Except ExtensionError Unit :=
  demand (subject.extensionID == ascii "gotth.mail.notification.webhook" && subject.repository ==
        ascii "https://github.com/gotthboard/gotth-extension-webhook" &&
      subject.interfaces == [ascii "gotth.mail.interface.notification"] &&
      subject.capabilities == runtimeCapabilities &&
      subject.secretSlots == [runtimeSlot] && secrets.length == 1 &&
      decide (32 ≤ ((secrets.lookup runtimeSlot).getD []).length) &&
      validRuntimeMetadata subject.metadata)
    (.text "unsupported extension runtime contract")

def runtimeConfiguration (values : List Member) : Except ExtensionError Text := do
  let endpoint := ((values.lookup (ascii "webhook.endpoint")).bind JsonValue.string?).getD []
  demand (endpoint != []) (.text "webhook endpoint required")
  let timeout := ((values.lookup (ascii "webhook.timeout-seconds")).bind integer).getD 0
  demand (decide (1 ≤ timeout ∧ timeout ≤ 30) && values.length == 2)
    (.text "bounded webhook timeout required")
  return marshal (.object [(ascii "endpoint", .string endpoint),
    (ascii "schema", .string (ascii "gotth.extension.webhook.config.v1")),
    (ascii "timeout_seconds", integerJSON timeout)])

/-- The process runs the artifact of an instance at its revision. -/
def ExtensionProcess.serves (process : ExtensionProcess) (subject : Instance) : Bool :=
  process.subject.artifactPin == subject.artifactPin &&
    process.subject.configurationRev == subject.configurationRev

structure ExtensionHealth where
  healthy : Bool
  code : Text

namespace Runtime

/-- A process that is not kept. -/
def abandon (process : ExtensionProcess) (reason : ExtensionError) :
    ExtensionTask Unit := do
  Task.attempt (askExtensions (.terminate process))
  Task.of (.error reason)

def reuse (existing : ExtensionProcess) (subject : Instance) : ExtensionTask Unit := do
  let exited : Bool ← Task.observe (askExtensions (.processExited existing))
  Task.of (demand (existing.serves subject && !exited) .conflict)

/-- Enter the process into the map, unless there is another one by now. -/
def enlist (process : ExtensionProcess) : ExtensionTask Unit := do
  match ← Task.observe (askExtensions (.register process)) with
  | .true => return ()
  | .false => abandon process .conflict

def spawn (subject : Instance)
    (secrets : List (Text × Text)) : ExtensionTask Unit := do
  Task.of (demand (validArtifact subject.artifactPin)
    (.text "valid immutable artifact pin required"))
  Task.attempt (askExtensions (.prepare subject.artifactPin))
  let _ ← Task.of (runtimeConfiguration subject.configuration)
  let process ← Task.attempt (askExtensions (.launch subject secrets))
  match ← Task.observe (askExtensions (.connect process)) with
  | .error reason => abandon process reason
  | .ok () => enlist process

def start (subject : Instance)
    (secrets : List (Text × Text)) : ExtensionTask Unit := do
  Task.of (validateInstance subject secrets)
  Task.attempt (askExtensions .checkContext)
  match ← Task.observe (askExtensions (.lookup subject.instanceID)) with
  | some existing => reuse existing subject
  | none => spawn subject secrets

def probe (subject : Instance) : ExtensionTask ExtensionHealth := do
  match ← Task.observe (askExtensions (.lookup subject.instanceID)) with
  | none => Task.of (.error (.text "extension process unavailable"))
  | some process =>
    let exited : Bool ← Task.observe (askExtensions (.processExited process))
    Task.of (demand (process.serves subject && !exited) (.text "extension process unavailable"))
    Task.attempt (askExtensions (.handshake process subject))
    return ⟨true, ascii "extension.ready"⟩

def admitRouting (subject : Instance) : ExtensionTask Unit :=
  Task.attempt (askExtensions (.admitRouting subject.instanceID))

def revokeRouting (subject : Instance) : ExtensionTask Unit :=
  Task.attempt (askExtensions (.revokeRouting subject.instanceID))

/-- Terminate a process and forget it. -/
def discard (process : ExtensionProcess) : ExtensionTask Unit := do
  Task.attempt (askExtensions (.terminate process))
  Task.observe (askExtensions (.remove process))
  Task.attempt (askExtensions (.removeFiles process))

def stop (subject : Instance) : ExtensionTask Unit := do
  match ← Task.attempt (askExtensions (.beginStop subject.instanceID)) with
  | none => return ()
  | some process => discard process

end Runtime

end GotthMail
