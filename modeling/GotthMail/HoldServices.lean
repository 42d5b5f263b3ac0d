/-
The two services that move a queue file.  A reconciliation puts a required
hold on it, a release takes the hold away; both work under the advisory lock
of the queue file and commit each transition before and after they touch
Postfix.
-/
import GotthMail.Enforcement

namespace GotthMail

open Bytes Relational Calls Sha256 Framing

/-- The first eight bytes of a digest as a signed number. -/
def queueAdvisoryLockKey (queueID : Text) : Int :=
  let number : Nat := ((sum256 queueID).take 8).foldl (fun total byte => total * 256 + byte.toNat) 0
  if number < 2 ^ 63 then number else (number : Int) - 2 ^ 64

/-- What a service hands back: the record it ended with, and the failure that
it recorded there. -/
structure QueueOutcome where
  record : QueueRecord
  changed : Bool
  failure : Option Error := none

structure QueueReleasePlan where
  queueID : Text
  holdState : HoldState
  policyRevisions : RevisionMap
  confirmationHash : Text

/-- Run under the lock of a queue file; the lock is given back in any case. -/
def withQueueLock (queueID : Text) (body : Service QueueOutcome) :
    Service QueueOutcome := do
  Task.attempt (ask (.lockQueue (queueAdvisoryLockKey queueID)))
  let result ← Task.observe body.run
  let unlocked ← Task.observe (ask (.unlockQueue (queueAdvisoryLockKey queueID)))
  let outcome ← Task.of result
  match unlocked with
  | .ok () => return outcome
  | .error reason =>
    return { outcome with failure := outcome.failure.or (some reason) }

/-- Run with the policy tables locked against writers. -/
def withPolicyLock {α : Type} (body : Service α) : Service α := do
  Task.attempt (ask .lockPolicy)
  let result ← Task.observe body.run
  Task.observe (ask .endPolicy)
  Task.of result

/-- The caller of a service. -/
structure Operator where
  actor : ActorRef
  correlationID : Text

def Operator.named (operator : Operator) : Bool :=
  decide (operator.actor.type ≠ [] ∧ operator.actor.id ≠ [] ∧ operator.correlationID ≠ [])

/-- The operator at the current time. -/
def Operator.mover (operator : Operator) (queueID : Text) : Service Mover := do
  let now ← Task.observe (ask .clock)
  return ⟨now, operator.actor, operator.correlationID, queueID⟩

/-- Policy requires a hold. -/
def Operator.requireHold (operator : Operator) (queueID : Text)
    (decision : Decision) : Service Unit := do
  let mover ← operator.mover queueID
  Task.attempt (ask (.requireHold mover decision))

namespace Platform

variable (p : Platform)

def matchesQueueMetadata (record : QueueRecord) (metadata : QueueMetadata) :
    Bool :=
  match p.normalizeQueueRegistration
    { queueID := metadata.queueID
      arrivalFingerprint := metadata.arrivalFingerprint
      envelopeSender := metadata.envelopeSender
      recipients := metadata.recipients
      sources := record.sources } with
  | .ok candidate => sameQueueIdentity record candidate
  | .error _ => false

section Reconcile

variable (operator : Operator)

def reconcileFail (record : QueueRecord) (code : String) :
    Service QueueOutcome := do
  let mover ← operator.mover record.queueID
  Task.attempt (ask (.finishReconciliation mover .reconciliationError (ascii code)))
  let stored ← p.loadRecord record.queueID
  return ⟨stored, true, some (.text code)⟩

def reconcileApplied (record : QueueRecord) (queueID : Text) :
    Service QueueOutcome := do
  let mover ← operator.mover record.queueID
  Task.attempt (ask (.finishReconciliation mover .applied []))
  let stored ← p.loadRecord queueID
  return ⟨stored, true, none⟩

/-- Postfix did not have the message on hold. -/
def reconcileHold (record : QueueRecord) (queueID : Text) :
    Service QueueOutcome := do
  match ← Task.observe (ask (.hold queueID)) with
  | .error _ => p.reconcileFail operator record "queue_hold_failed"
  | .ok () =>
    match ← Task.observe (ask (.inspect queueID)) with
    | .error _ =>
      p.reconcileFail operator record "queue_post_hold_inspection_failed"
    | .ok metadata =>
      if !p.matchesQueueMetadata record metadata then
        p.reconcileFail operator record "queue_post_hold_metadata_mismatch"
      else if !metadata.held then
        p.reconcileFail operator record "queue_hold_not_observed"
      else p.reconcileApplied operator record queueID

/-- The attempt after its start has been committed. -/
def reconcileStarted (record : QueueRecord) (queueID : Text) :
    Service QueueOutcome := do
  match ← Task.observe (ask (.inspect queueID)) with
  | .error _ => p.reconcileFail operator record "queue_inspection_failed"
  | .ok metadata =>
    if !p.matchesQueueMetadata record metadata then
      p.reconcileFail operator record "queue_metadata_mismatch"
    else if metadata.held then p.reconcileApplied operator record queueID
    else p.reconcileHold operator record queueID

/-- Postfix already holds the message of a record that says so. -/
def alreadyApplied (record : QueueRecord) (queueID : Text) : Service Bool := do
  if record.holdState = .applied then
    match ← Task.observe (ask (.inspect queueID)) with
    | .error _ => return false
    | .ok metadata =>
      return metadata.held && p.matchesQueueMetadata record metadata
  else return false

def reconcileLocked (queueID : Text) : Service QueueOutcome := do
  let record ← p.loadRecord queueID
  if ← p.alreadyApplied record queueID then
    return ⟨record, false, none⟩
  else
    Task.of (check (Database.reconcilable record.holdState)
      "outbound queue message does not require a hold")
    let mover ← operator.mover record.queueID
    Task.attempt (ask (.startReconciliation mover))
    p.reconcileStarted operator record queueID

def reconcile (queueID : Text) : Service QueueOutcome := do
  Task.of (check (operator.named && validLongQueueID queueID)
    "invalid outbound queue reconciliation request")
  withQueueLock queueID (p.reconcileLocked operator queueID)

end Reconcile

/-- One governing domain of a release. -/
def snapshotState (states : List (Text × PolicyState))
    (item : GoverningDomain) : Except Error (List (Text × PolicyState)) := do
  check (decide (p.normalizeDomain item.domain = .ok item.domain) &&
      validScope item.scope && decide (item.revision ≠ 0))
    "invalid outbound release policy snapshot"
  match states.lookup item.domain with
  | some prior =>
    check (prior == ⟨item.scope, item.revision⟩) "conflicting outbound release policy snapshot"
    return states
  | none => return states ++ [(item.domain, ⟨item.scope, item.revision⟩)]

/-- Every governing state, in the order of the domains. -/
def releasePolicySnapshot (governing : List GoverningDomain) :
    Except Error (RevisionMap × List Text) := do
  let states ← governing.foldlM p.snapshotState []
  check (!states.isEmpty) "empty outbound release policy snapshot"
  let sorted := byteOrder.sortBy Prod.fst states
  return (sorted.foldl (fun revisions entry => revisions.insert entry.1 entry.2.revision) ∅,
    sorted.map fun entry => entry.1 ++ 0 :: entry.2.scope.text ++ 0 :: decimal entry.2.revision)

/-- The confirmation binds the identity of the record and the policy. -/
def confirmation (record : QueueRecord) (snapshot : List Text) : Text :=
  digestStrings ([ascii "gotth-mail/queue-release/v1", record.queueID,
    record.arrivalFingerprint, record.recipientSetDigest, record.sourceSetDigest] ++ snapshot)

/-- The plan for a record whose governing domains are known. -/
def releasePlan (record : QueueRecord) (governing : List GoverningDomain) :
    Except Error QueueReleasePlan := do
  check (record.recipients.all fun recipient =>
      (p.evaluate ⟨.transport, record.queueID, recipient, governing⟩).action == .ok)
    "outbound queue remains forbidden by current policy"
  let (revisions, snapshot) ← p.releasePolicySnapshot governing
  return ⟨record.queueID, record.holdState, revisions, confirmation record snapshot⟩

def previewRecord (record : QueueRecord) : Service QueueReleasePlan := do
  Task.of (check (Database.releasable record.holdState ||
      record.holdState == .released) "outbound queue message is not releasable")
  let governing ← Task.attempt (ask (.resolve record.sources))
  Task.of (p.releasePlan record governing)

def preview (queueID : Text) : Service QueueReleasePlan := do
  Task.of (check (validLongQueueID queueID) "invalid outbound queue release preview")
  let record ← p.loadQueue queueID
  p.previewRecord record

section Release

variable (operator : Operator)

def releaseFail (record : QueueRecord) (code : String) :
    Service QueueOutcome := do
  let mover ← operator.mover record.queueID
  Task.attempt (ask (.finishRelease mover .releaseError (ascii code)))
  let stored ← p.loadRecord record.queueID
  return ⟨stored, true, some (.text code)⟩

/-- Postfix has released the message, or says so. -/
def releaseVerify (record : QueueRecord) (queueID : Text) :
    Service QueueOutcome := do
  match ← Task.observe (ask (.inspect queueID)) with
  | .error _ =>
    p.releaseFail operator record "queue_post_release_inspection_failed"
  | .ok metadata =>
    if metadata.held || !p.matchesQueueMetadata record metadata then
      p.releaseFail operator record "queue_release_not_verified"
    else
      let mover ← operator.mover record.queueID
      Task.attempt (ask (.finishRelease mover .released []))
      let stored ← p.loadRecord queueID
      return ⟨stored, true, none⟩

/-- The attempt after its start has been committed. -/
def releaseStarted (record : QueueRecord) (queueID : Text) :
    Service QueueOutcome := do
  match ← Task.observe (ask (.release queueID)) with
  | .error _ => p.releaseFail operator record "queue_release_failed"
  | .ok () => p.releaseVerify operator record queueID

/-- The release once it has been confirmed; Postfix has been asked already. -/
def releaseConfirmed (record : QueueRecord) (queueID : Text)
    (inspected : Except Error QueueMetadata) : Service QueueOutcome := do
  let seen (held : Bool) : Bool := inspected.toOption.any fun metadata =>
    metadata.held == held && p.matchesQueueMetadata record metadata
  if record.holdState = .released then
    Task.of (check (seen false) "released outbound queue metadata is inconsistent")
    return ⟨record, false, none⟩
  else
    Task.of (check (Database.releasable record.holdState)
      "outbound queue message is not releasable")
    Task.of (check (seen true) "held outbound queue metadata is unavailable")
    let mover ← operator.mover record.queueID
    Task.attempt (ask (.startRelease mover))
    p.releaseStarted operator record queueID

def releaseLocked (queueID confirmed : Text) : Service QueueOutcome := do
  let record ← p.loadRecord queueID
  withPolicyLock do
    let plan ← p.previewRecord record
    Task.of (check (plan.confirmationHash == confirmed)
      "outbound queue release confirmation is stale")
    let inspected ← Task.observe (ask (.inspect queueID))
    p.releaseConfirmed operator record queueID inspected

def release (queueID confirmed : Text) : Service QueueOutcome := do
  Task.of (check (operator.named && validLongQueueID queueID &&
      validLowerHexDigest confirmed) "invalid outbound queue release request")
  withQueueLock queueID (p.releaseLocked operator queueID confirmed)

end Release

end Platform

end GotthMail
