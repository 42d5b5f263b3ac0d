/-
The requests on the approval store and the executor of a confirmed approval,
as programs over single statements and transactions.  The journal of a world
lists the transactions that have been committed, with the store that each of
them left.
-/
import GotthMail.Approval

namespace GotthMail

open Bytes Relational Calls

inductive ApprovalCall where
  | clock
  | newID
  | newBindingToken
  | get (id : Text)
  | commit (transaction : ApprovalTransaction)
  | mapActor (actor : TransportActor)
  | decide (actor : ActorRef) (action : Text) (resource : Resource)
  | requestHash (action : Text) (resource : Resource)
  | flush
  | retryQueue (id : Text)
  | afterMutation (approval : ApprovalRow)
  | returned (failure : Option Error)

@[reducible] def ApprovalCall.Answer : ApprovalCall → Type
  | .clock => Time
  | .newID => Except Error Text
  | .newBindingToken => Except Error Text
  | .get _ => Except Error (Option ApprovalRow)
  | .mapActor _ => Except Error (Option ActorRef)
  | .decide _ _ _ => Except Error Bool
  | .requestHash _ _ => Except Error Text
  | .returned _ => Unit
  | _ => Except Error Unit

@[reducible] def approvalInterface : Signature := ⟨ApprovalCall, ApprovalCall.Answer⟩

/-- A committed transaction: whose, when, and the store that it left. -/
structure Commit where
  thread : Thread
  transaction : ApprovalTransaction
  time : Time
  store : ApprovalStore

structure ApprovalWorld where
  store : ApprovalStore
  time : Time
  journal : List Commit

section Machine

variable (s : Precision) (p : Platform) (clock : Time → Time → Prop)

namespace ApprovalWorld

/-- A transaction commits, though its caller may not learn of it; it is
refused; or it fails and changes nothing. -/
def Commits (thread : Thread) (world : ApprovalWorld)
    (transaction : ApprovalTransaction) (answer : Except Error Unit)
    (after : ApprovalWorld) : Prop :=
  (∃ next, ApprovalStore.apply s p transaction world.store = .ok next ∧
      after = { world with
        store := next
        journal := ⟨thread, transaction, world.time, next⟩ :: world.journal } ∧
      (answer = .ok () ∨ answer = .error .sql)) ∨
    (after = world ∧ ∃ reason, answer = .error reason ∧ (reason = .sql ∨
        ApprovalStore.apply s p transaction world.store = .error reason))

/-- What a call does at the time at which it is made.  Everything outside the
store answers as it likes; a clock answers what it may show at that time. -/
def Does (thread : Thread) (world : ApprovalWorld) :
    (call : ApprovalCall) → call.Answer → ApprovalWorld → Prop
  | .clock, answer, after => after = world ∧ clock world.time answer
  | .get id, answer, after => after = world ∧
      (answer = .ok (world.store.approvals.find? id) ∨ answer = .error .sql)
  | .commit transaction, answer, after =>
    world.Commits s p thread transaction answer after
  | .newID, _, after => after = world
  | .newBindingToken, _, after => after = world
  | .mapActor _, _, after => after = world
  | .decide _ _ _, _, after => after = world
  | .requestHash _ _, _, after => after = world
  | .flush, _, after => after = world
  | .retryQueue _, _, after => after = world
  | .afterMutation _, _, after => after = world
  | .returned _, _, after => after = world

end ApprovalWorld

/-- Time passes before every call. -/
@[reducible] def approvalMachine : Machine approvalInterface ApprovalWorld where
  performs thread world call answer after :=
    ∃ time, world.time ≤ time ∧
      ApprovalWorld.Does s p clock thread { world with time } call answer after
  exits _ world := world

end Machine

abbrev ApprovalService (α : Type) := Calls.Task approvalInterface Error α

def askStore (call : ApprovalCall) : Program approvalInterface call.Answer :=
  Program.perform (S := approvalInterface) call

/-- A transaction whose failure ends the request. -/
def commitTx (transaction : ApprovalTransaction) : ApprovalService Unit :=
  Task.attempt (askStore (.commit transaction))

namespace Platform

variable (p : Platform)

def canonicalRequest (request : ApprovalRequest) : ApprovalRequest :=
  { request with
    transportActor := ⟨p.cleanToken request.transportActor.transport 40,
      trimSpace request.transportActor.externalID⟩
    initiator := ⟨p.cleanToken request.initiator.type 40, trimSpace request.initiator.id⟩
    actor := ⟨p.cleanToken request.actor.type 40, trimSpace request.actor.id⟩
    requestHash := p.cleanToken request.requestHash 128
    correlationID := p.cleanToken request.correlationID 128 }

/-- Everything but the correlation is required, and some time must be left. -/
def completeRequest (request : ApprovalRequest) (now : Time) : Bool :=
  decide (now ≠ 0 ∧ now < request.expiresAt) &&
    [request.transportActor.transport, request.transportActor.externalID,
      request.initiator.type, request.initiator.id, request.actor.type,
      request.actor.id, request.action, request.resource.type,
      request.resource.id, request.requestHash].all fun text => text != []

/-- The identifier of a request, drawn if it has none. -/
def requestID (request : ApprovalRequest) : ApprovalService Text :=
  if request.id = [] then Task.attempt (askStore .newID) else pure request.id

def create (request : ApprovalRequest) (now : Time) :
    ApprovalService ApprovalRequest := do
  let id ← requestID request
  Task.of (check (request.bindingToken == []) "approval binding token is generated by the store")
  let token ← Task.attempt (askStore .newBindingToken)
  Task.of (check (validBindingToken token) "valid approval binding token required")
  let canonical :=
    { p.canonicalRequest request with id, bindingToken := token }
  Task.of (check (completeRequest canonical now) "complete unexpired approval request required")
  commitTx (.create canonical now)
  return canonical

end Platform

def activate (id : Text) : ApprovalService Unit := commitTx (.activate id)

def complete (id : Text) (now : Time) : ApprovalService Unit := commitTx (.complete id now)

def Platform.executionCode (p : Platform) (code : Text) : Text :=
  let cleaned := p.cleanToken code 80
  if cleaned = [] then ascii "execution_failed" else cleaned

def Platform.retryApproval (p : Platform) (id code : Text) :
    ApprovalService Unit :=
  commitTx (.retry id (p.executionCode code))

def getApproval (id : Text) : ApprovalService ApprovalRow := do
  let found ← Task.attempt (askStore (.get id))
  Task.of (require found "approval request not found")

def invalidate (id reason : Text) : ApprovalService Unit := do
  let read ← getApproval id
  commitTx (.invalidate read reason)

namespace Platform

variable (p : Platform)

/-- The confirmation names what the stored row binds. -/
def confirms (confirmation : ApprovalConfirmation) (row : ApprovalBinding) : Bool :=
  decide (p.cleanToken confirmation.transportActor.transport 40 = row.transportActor.transport ∧
    trimSpace confirmation.transportActor.externalID = row.transportActor.externalID ∧
    p.cleanToken confirmation.actor.type 40 = row.actor.type ∧
    trimSpace confirmation.actor.id = row.actor.id ∧
    confirmation.action = row.action ∧ confirmation.resource = row.resource ∧
    p.cleanToken confirmation.requestHash 128 = row.requestHash) &&
  validBindingToken confirmation.bindingToken &&
  hashBindingToken confirmation.bindingToken == row.bindingHash

/-- An execution whose lease has not run out. -/
def inProgress (now lease : Time) (progress : ApprovalProgress) : Bool :=
  progress.result == .executing &&
    progress.startedAt.all fun started => decide (now - started < lease)

/-- Why a confirmation of the row is refused, and whether that ends the
approval. -/
def claimRefusal (confirmation : ApprovalConfirmation) (lease : Time)
    (row : ApprovalRow) : Option (String × Bool) :=
  if row.progress.usedAt.isSome || !(row.progress.result == .pending ||
      row.progress.result == .executing) then
    some ("approval replay rejected", false)
  else if inProgress confirmation.now lease row.progress then
    some ("approval execution already in progress", false)
  else if confirmation.now = 0 ∨ confirmation.now < row.binding.createdAt then
    some ("invalid approval confirmation time", false)
  else if row.binding.expiresAt ≤ confirmation.now then
    some ("approval expired", true)
  else if !p.confirms confirmation row.binding then
    some ("approval binding mismatch", false)
  else none

end Platform

/-- The row as the denied confirmation presents it. -/
def ApprovalRow.attemptedBy (row : ApprovalRow)
    (confirmation : ApprovalConfirmation) : ApprovalRow :=
  { row with binding := { row.binding with
      actor := confirmation.actor
      transportActor := confirmation.transportActor } }

def claimFail {α : Type} (read : ApprovalRow) (confirmation : ApprovalConfirmation)
    (message : String) (terminal : Bool) : ApprovalService α := do
  match ← Task.observe (askStore
    (.commit (.deny (read.attemptedBy confirmation) message terminal))) with
  | .error _ => Task.of (.error (.text "approval audit unavailable"))
  | .ok () => Task.of (.error (.text message))

/-- The row that was read, as a successful claim returns it. -/
def ApprovalRow.claimedAt (now : Time) (row : ApprovalRow) : ApprovalRow :=
  { row with progress := { row.progress with
      startedAt := some now
      attempts := row.progress.attempts + 1
      result := .executing } }

namespace Platform

variable (p : Platform)

def claimRead (confirmation : ApprovalConfirmation) (lease : Time)
    (read : ApprovalRow) : ApprovalService ApprovalRow := do
  match p.claimRefusal confirmation lease read with
  | some (message, terminal) => claimFail read confirmation message terminal
  | none =>
    match ← Task.observe (askStore (.commit (.claim read confirmation lease))) with
    | .ok () => return read.claimedAt confirmation.now
    | .error .sql => Task.of (.error .sql)
    | .error (.text message) => claimFail read confirmation message false

def claim (confirmation : ApprovalConfirmation) (lease : Time) :
    ApprovalService ApprovalRow := do
  let read ← getApproval confirmation.id
  p.claimRead confirmation lease read

end Platform

/-- The configuration of an executor; a queue runtime and a hook after the
mutation may be missing. -/
structure ApprovalExecutor where
  lease : Time
  queue : Bool
  afterMutation : Bool

namespace ApprovalExecutor

variable (e : ApprovalExecutor)

/-- Two minutes, in nanoseconds, unless configured otherwise. -/
def leaseTime : Time := if 0 < e.lease then e.lease else 120000000000

/-- An event on its own; the caller learns only that it could not be written. -/
def writeEvent (event : ApprovalEvent) : ApprovalService Unit := do
  match ← Task.observe (askStore (.commit (.writeAudit event))) with
  | .error _ => Task.of (.error (.text "approval audit unavailable"))
  | .ok () => return ()

def transportEvent (id : Text) (actor : TransportActor) (result code : String) : ApprovalEvent where
  actor := ⟨actor.transport, actor.externalID⟩
  action := "notification.approval.execute"
  resource := ⟨ascii "notification_approval", id⟩
  result := result
  errorCode := ascii code
  after := [("transport", actor.transport)]

def approvalEvent (row : ApprovalRow) (result code : String) : ApprovalEvent where
  actor := row.binding.actor
  action := "notification.approval.execute"
  resource := row.binding.resource
  correlationID := row.binding.correlationID
  result := result
  errorCode := ascii code
  after := [("approval_id", row.id), ("approved_action", row.binding.action)]

/-- Write the event, then fail with the given reason. -/
def refuse {α : Type} (event : ApprovalEvent) (reason : Error) :
    ApprovalService α := do
  writeEvent event
  Task.of (.error reason)

def validateMutation (row : ApprovalRow) : Except Error Unit := do
  check (decide (row.binding.action = ascii "queue:flush" ∨
    row.binding.action = ascii "queue:retry")) "unsupported approved mutation"
  check (decide (row.binding.resource.type = ascii "queue" ∨
    row.binding.resource.type = ascii "postfix_queue")) "queue approval resource required"
  check e.queue "queue runtime required"

/-- The queue is what it was when the approval was asked for. -/
def sameRequest (row : ApprovalRow) : ApprovalService Unit := do
  let hash ← Task.attempt (askStore (.requestHash row.binding.action row.binding.resource))
  Task.of (check (hash == row.binding.requestHash) "approval request changed")

/-- Only a pending approval is compared with the queue as it is now. -/
def preflight (row : ApprovalRow) : ApprovalService Unit := do
  Task.of (e.validateMutation row)
  if row.progress.result = .pending then sameRequest row else return ()

def execute (row : ApprovalRow) : ApprovalService Unit := do
  Task.of (e.validateMutation row)
  if row.binding.action = ascii "queue:flush" then
    Task.attempt (askStore .flush)
  else Task.attempt (askStore (.retryQueue row.binding.resource.id))

def mappedActor (id : Text) (actor : TransportActor) :
    ApprovalService ActorRef := do
  match ← Task.observe (askStore (.mapActor actor)) with
  | .error reason =>
    refuse (transportEvent id actor "failure" "mapping_unavailable") reason
  | .ok none =>
    refuse (transportEvent id actor "denied" "mapping_required")
      (.text "notification actor mapping required")
  | .ok (some mapped) => return mapped

def foundApproval (id : Text) (actor : TransportActor) :
    ApprovalService ApprovalRow := do
  match ← Task.observe (askStore (.get id)) with
  | .error reason =>
    refuse (transportEvent id actor "failure" "approval_lookup_failed") reason
  | .ok none =>
    refuse (transportEvent id actor "denied" "approval_not_found")
      (.text "approval request not found")
  | .ok (some row) => return row

/-- The actor may execute the approval as it was found. -/
def authorized (row : ApprovalRow) (mapped : ActorRef) : ApprovalService Unit := do
  if row.progress.usedAt.isSome || !(row.progress.result == .pending ||
      row.progress.result == .executing) then
    refuse (approvalEvent row "denied" "approval_replay_rejected")
      (.text "approval replay rejected")
  else
    match ← Task.observe (askStore (.decide mapped row.binding.action row.binding.resource)) with
    | .error reason =>
      refuse (approvalEvent row "failure" "authorization_failed") reason
    | .ok false =>
      refuse (approvalEvent row "denied" "authorization_denied")
        (.text "approval action unauthorized")
    | .ok true => return ()

/-- The approval can still be executed as it stands. -/
def unchanged (row : ApprovalRow) : ApprovalService Unit := do
  match ← Task.observe (e.preflight row).run with
  | .error reason =>
    refuse (approvalEvent row "denied" "approval_request_changed") reason
  | .ok () => return ()

def hook (confirmed : ApprovalRow) : ApprovalService Unit :=
  if e.afterMutation then Task.attempt (askStore (.afterMutation confirmed))
  else return ()

/-- The mutation of a claimed approval and the end of its execution. -/
def finish (p : Platform) (confirmed : ApprovalRow) : ApprovalService Unit := do
  match ← Task.observe (e.execute confirmed).run with
  | .error reason =>
    -- The clock is only recorded with the row, so it is not read here.
    match ← Task.observe (p.retryApproval confirmed.id (ascii "queue_mutation_failed")).run with
    | .error _ => Task.of (.error (.text "approval recovery audit unavailable"))
    | .ok () => Task.of (.error reason)
  | .ok () =>
    e.hook confirmed
    let now ← Task.observe (askStore .clock)
    complete confirmed.id now

def executeTelegramApproval (p : Platform) (id bindingToken : Text)
    (actor : TransportActor) : ApprovalService Unit := do
  let mapped ← mappedActor id actor
  let row ← foundApproval id actor
  authorized row mapped
  e.unchanged row
  let now ← Task.observe (askStore .clock)
  let confirmed ← p.claim {
    id := id
    transportActor := actor
    actor := mapped
    action := row.binding.action
    resource := row.binding.resource
    requestHash := row.binding.requestHash
    bindingToken := bindingToken
    now := now } e.leaseTime
  e.finish p confirmed

end ApprovalExecutor

/-- A request on the store, or the execution of an approval. -/
inductive ApprovalJob where
  | create (request : ApprovalRequest) (now : Time)
  | activate (id : Text)
  | invalidate (id reason : Text)
  | claim (confirmation : ApprovalConfirmation) (lease : Time)
  | complete (id : Text) (now : Time)
  | retry (id code : Text)
  | execute (executor : ApprovalExecutor) (id bindingToken : Text) (actor : TransportActor)

/-- The error that a request returns. -/
def reported {α : Type} (service : ApprovalService α) :
    Program approvalInterface Unit := do
  match ← service.run with
  | .ok _ => askStore (.returned none)
  | .error reason => askStore (.returned (some reason))

def ApprovalJob.program (p : Platform) : ApprovalJob → Program approvalInterface Unit
  | .create request now => reported (p.create request now)
  | .activate id => reported (GotthMail.activate id)
  | .invalidate id reason => reported (GotthMail.invalidate id reason)
  | .claim confirmation lease => reported (p.claim confirmation lease)
  | .complete id now => reported (GotthMail.complete id now)
  | .retry id code => reported (p.retryApproval id code)
  | .execute executor id bindingToken actor =>
    reported (executor.executeTelegramApproval p id bindingToken actor)

end GotthMail
