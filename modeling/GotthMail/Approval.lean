/-
The store of approvals that are confirmed over a chat transport.  A request is
created, becomes pending once its prompt has been sent, and is claimed for
execution; each of these is one transaction that changes one row and writes
one event.
-/
import GotthMail.Interleaving
import GotthMail.Register
import Mathlib.Data.Int.ConditionallyCompleteOrder

namespace GotthMail

open Bytes Framing Sha256 Relational Calls

def runeStart (byte : UInt8) : Bool := byte &&& 0xC0 != 0x80

/-- Move a cut to the left until it stands before a rune. -/
def cutBefore (text : Text) : Nat → Nat
  | 0 => 0
  | cut + 1 =>
    if runeStart (text.getD (cut + 1) 0) then cut + 1 else cutBefore text cut

/-- A text of at most that many bytes; a final dot stands for the rest. -/
def bound (value : Text) (limit : Nat) : Text :=
  let trimmed := trimSpace value
  if trimmed.length ≤ limit then trimmed
  else if limit = 0 then []
  else if limit = 1 then ascii "."
  else trimmed.take (cutBefore trimmed (limit - 1)) ++ ascii "."

namespace Platform

variable (p : Platform)

/-- Lower case without blanks; malformed bytes become replacement runes. -/
def normalizeToken (value : Text) : Text :=
  (decode (p.lower (trimSpace value))).flatMap fun rune => if isSpace rune then ascii "-"
    else if rune.isMalformed then [0xEF, 0xBF, 0xBD]
    else rune.bytes

def cleanToken (value : Text) (limit : Nat) : Text := bound (p.normalizeToken value) limit

end Platform

/-- The alphabet of unpadded URL-safe base64. -/
def isURLByte (byte : UInt8) : Bool :=
  decide (65 ≤ byte ∧ byte ≤ 90) || decide (97 ≤ byte ∧ byte ≤ 122) ||
    isDigit byte || byte == 45 || byte == 95

/-- Twenty-two characters of the alphabet, the form of sixteen bytes. -/
def validBindingToken (token : Text) : Bool :=
  token.length == 22 && decide (trimSpace token = token) && token.all isURLByte

def hashBindingToken (token : Text) : Text := sumHex token

structure TransportActor where
  transport : Text
  externalID : Text
deriving DecidableEq

structure Resource where
  type : Text
  id : Text
deriving DecidableEq

/-- What is asked for when an approval is created. -/
structure ApprovalRequest where
  id : Text
  transportActor : TransportActor
  initiator : ActorRef
  actor : ActorRef
  action : Text
  resource : Resource
  requestHash : Text
  bindingToken : Text
  correlationID : Text
  expiresAt : Time
deriving DecidableEq

structure ApprovalConfirmation where
  id : Text
  transportActor : TransportActor
  actor : ActorRef
  action : Text
  resource : Resource
  requestHash : Text
  bindingToken : Text
  now : Time
deriving DecidableEq

inductive ApprovalResult where
  | creating
  | pending
  | executing
  | approved
  | rejected
  | expired
deriving DecidableEq

/-- The columns that no statement changes. -/
structure ApprovalBinding where
  id : Text
  transportActor : TransportActor
  actor : ActorRef
  action : Text
  resource : Resource
  requestHash : Text
  bindingHash : Text
  correlationID : Text
  expiresAt : Time
  createdAt : Time
deriving DecidableEq

/-- The columns that follow the approval on its way. -/
structure ApprovalProgress where
  result : ApprovalResult := .creating
  usedAt : Option Time := none
  startedAt : Option Time := none
  attempts : Nat := 0
  errorCode : Option Text := none
deriving DecidableEq

structure ApprovalRow where
  binding : ApprovalBinding
  progress : ApprovalProgress
deriving DecidableEq

def ApprovalRow.id (row : ApprovalRow) : Text := row.binding.id

/-- An event of the approval store, with the values that it keeps. -/
structure ApprovalEvent where
  actor : ActorRef
  action : String
  resource : Resource
  correlationID : Text := []
  result : String
  errorCode : Text := []
  after : List (String × Text)
deriving DecidableEq

structure ApprovalStore where
  approvals : Table ApprovalRow ApprovalRow.id
  audit : List ApprovalEvent

/-- A timestamp column keeps times in a coarser grain, in the same order. -/
structure Precision where
  round : Time → Time
  monotone : Monotone round
  idempotent : ∀ time, round (round time) = round time

def isCodeByte (byte : UInt8) : Bool :=
  decide (97 ≤ byte ∧ byte ≤ 122) || isDigit byte || byte == 95

/-- The constraints on `notification_approvals`. -/
def approvalChecks (row : ApprovalRow) : Bool :=
  [row.binding.id, row.binding.transportActor.transport,
    row.binding.transportActor.externalID, row.binding.actor.type,
    row.binding.actor.id, row.binding.action, row.binding.resource.type,
    row.binding.resource.id, row.binding.requestHash, row.binding.correlationID].all storable &&
  validLowerHexDigest row.binding.bindingHash && decide (row.progress.attempts < 2 ^ 31) &&
  row.progress.errorCode.all fun code =>
    decide (1 ≤ code.length ∧ code.length ≤ 80) && code.all isCodeByte

def approvalAuditEvent (p : Platform) (row : ApprovalBinding)
    (action result : String) (failure : Option Text) : ApprovalEvent where
  actor := row.actor
  action := action
  resource := row.resource
  correlationID := row.correlationID
  result := result
  errorCode := failure.elim [] (p.cleanToken · 80)
  after := [("approval_id", row.id), ("transport", row.transportActor.transport),
    ("external_actor_id", row.transportActor.externalID), ("request_hash", row.requestHash)]

namespace ApprovalStore

def writeAudit (event : ApprovalEvent) (store : ApprovalStore) :
    Except Error ApprovalStore := do
  checkSql ([event.actor.type, event.actor.id, event.resource.type,
    event.resource.id, event.correlationID, event.errorCode].all storable)
  return { store with audit := store.audit ++ [event] }

/-- A conditional update of one row, with the row that it returns. -/
def updateApproval (id : Text) (guard : ApprovalProgress → Bool)
    (change : ApprovalProgress → ApprovalProgress) (rejected : String)
    (store : ApprovalStore) : Except Error (ApprovalBinding × ApprovalStore) := do
  let rows := store.approvals.matching id fun row => guard row.progress
  checkSql (rows.all fun row => approvalChecks { row with progress := change row.progress })
  let row ← require rows.head? rejected
  return (row.binding, { store with
    approvals := store.approvals.update (fun row => decide (row.id = id) && guard row.progress)
      (fun row => { row with progress := change row.progress }) fun _ => rfl })

end ApprovalStore

/-- The columns that a request binds, as they are stored. -/
def ApprovalRequest.stored (s : Precision) (request : ApprovalRequest)
    (now : Time) : ApprovalBinding where
  id := request.id
  transportActor := request.transportActor
  actor := request.actor
  action := request.action
  resource := request.resource
  requestHash := request.requestHash
  bindingHash := hashBindingToken request.bindingToken
  correlationID := request.correlationID
  expiresAt := s.round request.expiresAt
  createdAt := s.round now

/-- Each transaction of the store, with the values that it is given. -/
inductive ApprovalTransaction where
  | create (request : ApprovalRequest) (now : Time)
  | activate (id : Text)
  | claim (read : ApprovalRow) (confirmation : ApprovalConfirmation) (lease : Time)
  | complete (id : Text) (now : Time)
  | retry (id : Text) (code : Text)
  | invalidate (read : ApprovalRow) (reason : Text)
  | deny (attempt : ApprovalRow) (message : String) (terminal : Bool)
  | writeAudit (event : ApprovalEvent)

namespace ApprovalProgress

def activated (progress : ApprovalProgress) : ApprovalProgress :=
  { progress with result := .pending }

def claimed (now : Time) (progress : ApprovalProgress) : ApprovalProgress :=
  { progress with
    result := .executing
    startedAt := some now
    attempts := progress.attempts + 1
    errorCode := none }

def completed (now : Time) (progress : ApprovalProgress) : ApprovalProgress :=
  { progress with result := .approved, usedAt := some now, errorCode := none }

def retried (code : Text) (progress : ApprovalProgress) : ApprovalProgress :=
  { progress with
    result := .pending
    startedAt := none
    errorCode := some code }

/-- The result of an approval that ends without being used. -/
def closed (result : ApprovalResult) (progress : ApprovalProgress) :
    ApprovalProgress :=
  { progress with result }

/-- A pending approval, or one whose execution started before a time. -/
def claimable (before : Time) (progress : ApprovalProgress) : Bool :=
  progress.usedAt.isNone && (progress.result == .pending || (progress.result == .executing &&
      progress.startedAt.any fun started => decide (started < before)))

def executing (progress : ApprovalProgress) : Bool :=
  progress.usedAt.isNone && progress.result == .executing

end ApprovalProgress

namespace ApprovalStore

variable (s : Precision) (p : Platform)

def createTx (request : ApprovalRequest) (now : Time) (store : ApprovalStore) :
    Except Error ApprovalStore := do
  let row : ApprovalRow := ⟨request.stored s now, {}⟩
  checkSql (approvalChecks row)
  let approvals ← requireSql (store.approvals.insert row)
  ApprovalStore.writeAudit
    { approvalAuditEvent p row.binding "notification.approval.create" "success"
        none with
      actor := request.initiator
      after := [("approval_id", request.id), ("transport", request.transportActor.transport),
        ("external_actor_id", request.transportActor.externalID),
        ("request_hash", request.requestHash), ("prompted_actor_type", request.actor.type),
        ("prompted_actor_id", request.actor.id)] }
    { store with approvals }

def activateTx (id : Text) (store : ApprovalStore) :
    Except Error ApprovalStore := do
  let (row, next) ← store.updateApproval id
    (fun progress => progress.result == .creating && progress.usedAt.isNone)
    ApprovalProgress.activated "approval activation rejected"
  next.writeAudit (approvalAuditEvent p row "notification.approval.prompt" "success" none)

/-- The guard looks at the row again, and at nothing but its progress. -/
def claimTx (read : ApprovalRow) (confirmation : ApprovalConfirmation)
    (lease : Time) (store : ApprovalStore) : Except Error ApprovalStore := do
  let (_, next) ← store.updateApproval read.id
    (ApprovalProgress.claimable (s.round (confirmation.now - lease)))
    (ApprovalProgress.claimed (s.round confirmation.now)) "approval replay rejected"
  next.writeAudit (approvalAuditEvent p read.binding "notification.approval.confirm" "success" none)

def completeTx (id : Text) (now : Time) (store : ApprovalStore) :
    Except Error ApprovalStore := do
  let (row, next) ← store.updateApproval id ApprovalProgress.executing
    (ApprovalProgress.completed (s.round now)) "approval execution completion rejected"
  next.writeAudit {
    actor := row.actor
    action := "notification.approval.execute"
    resource := row.resource
    correlationID := row.correlationID
    result := "success"
    after := [("approval_id", id), ("approved_action", row.action)] }

def retryTx (id code : Text) (store : ApprovalStore) :
    Except Error ApprovalStore := do
  let (row, next) ← store.updateApproval id ApprovalProgress.executing
    (ApprovalProgress.retried code) "approval execution retry rejected"
  next.writeAudit (approvalAuditEvent p row "notification.approval.execute" "failure" (some code))

def invalidateTx (read : ApprovalRow) (reason : Text) (store : ApprovalStore) :
    Except Error ApprovalStore := do
  let (_, next) ← store.updateApproval read.id
    (fun progress => progress.result == .creating || progress.result == .pending)
    (ApprovalProgress.closed .rejected) "approval request not pending"
  next.writeAudit (approvalAuditEvent p read.binding
    "notification.approval.invalidate" "failure" (some (p.cleanToken reason 80)))

/-- A denied confirmation; a terminal one ends the approval. -/
def denyTx (attempt : ApprovalRow) (message : String) (terminal : Bool)
    (store : ApprovalStore) : Except Error ApprovalStore := do
  let next ← if terminal then
      Prod.snd <$> store.updateApproval attempt.id (fun progress =>
          progress.result == .pending || progress.result == .executing)
        (ApprovalProgress.closed .expired) "approval request not pending"
    else pure store
  next.writeAudit (approvalAuditEvent p attempt.binding
    "notification.approval.confirm" "denied" (some (ascii message)))

/-- What a transaction does to the store. -/
def apply : ApprovalTransaction → ApprovalStore → Except Error ApprovalStore
  | .create request now => createTx s p request now
  | .activate id => activateTx p id
  | .claim read confirmation lease => claimTx s p read confirmation lease
  | .complete id now => completeTx s id now
  | .retry id code => retryTx p id code
  | .invalidate read reason => invalidateTx p read reason
  | .deny attempt message terminal => denyTx p attempt message terminal
  | .writeAudit event => writeAudit event

end ApprovalStore

end GotthMail
