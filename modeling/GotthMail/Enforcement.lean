/-
The enforcement service.  A decision resolves the governing domains from the
current objects; at transport it also needs the stored record of the queue
file and the recipient among its immutable recipients.  Whatever goes wrong
becomes an unavailable deferral.
-/
import GotthMail.System

namespace GotthMail

open Bytes Relational Calls

/-- A service: a program over the calls of the system that may fail. -/
abbrev Service (α : Type) := Task interface Error α

def ask (call : Call) : Program interface call.Answer := Program.perform (S := interface) call

structure EnforcementRequest where
  stage : Stage
  queueID : Text := []
  authenticatedMailbox : Text := []
  systemSenderID : Text := []
  envelopeSender : Text := []
  recipient : Text
  expansionSources : List QueueSource := []

/-- The halving loop of a search for the first index that meets a predicate. -/
def searchFrom (predicate : Nat → Bool) : Nat → Nat → Nat → Nat
  | 0, low, _ => low
  | fuel + 1, low, high =>
    if low < high then
      let middle := (low + high) / 2
      if predicate middle then searchFrom predicate fuel low middle
      else searchFrom predicate fuel (middle + 1) high
    else low

def searchStrings (values : List Text) (target : Text) : Nat :=
  searchFrom (fun index => byteOrder.le target (values.getD index []))
    (values.length + 1) 0 values.length

def sortedStringContains (values : List Text) (target : Text) : Bool :=
  values[searchStrings values target]? == some target

def isExpansionKind (kind : SourceKind) : Bool :=
  decide (kind = .alias ∨ kind = .forward ∨ kind = .list ∨ kind = .catchAll)

namespace Platform

variable (p : Platform)

/-- Each part of a record is checked before the next query is made. -/
def loadRecord (queueID : Text) : Service QueueRecord := do
  let message ← Task.attempt (ask (.readMessage queueID))
  let row ← Task.of (require message "outbound queue record not found")
  let _ ← Task.of (p.loadMessage queueID row)
  let recipientRows ← Task.attempt (ask (.readRecipients queueID))
  let _ ← Task.of (recipientRows.foldlM p.scanRecipient [])
  let sourceRows ← Task.attempt (ask (.readSources queueID))
  Task.of (p.loadQueueRecord queueID message recipientRows sourceRows)

def loadQueue (queueID : Text) : Service QueueRecord := do
  Task.of (check (validLongQueueID queueID) "invalid Postfix long queue ID")
  p.loadRecord queueID

def admittedEnvelope (envelopeSender : Text) : Except Error Text :=
  if envelopeSender = ascii "<>" then .ok envelopeSender
  else require ((p.normalizeQueueRecipient envelopeSender).toOption.map Prod.fst)
    "invalid admitted envelope sender"

def authoritySources (request : EnforcementRequest) (envelope : Text) :
    Service (List QueueSource) :=
  if request.authenticatedMailbox ≠ [] then do
    let (mailbox, id) ← Task.attempt (ask (.mailboxObject request.authenticatedMailbox))
    Task.of (check (p.equalFold mailbox envelope)
      "envelope sender is not bound to authenticated mailbox")
    return [⟨.authenticatedMailbox, id⟩, ⟨.envelopeSender, id⟩]
  else do
    let bound ← Task.attempt (ask (.systemSender request.systemSenderID))
    Task.of (check (decide (envelope = ascii "<>") || p.equalFold bound envelope)
      "envelope sender is not bound to system sender")
    return [⟨.systemSender, request.systemSenderID⟩]

def submissionSources (request : EnforcementRequest) :
    Service (List QueueSource) := do
  Task.of (check (decide (request.queueID = [] ∧
      ¬ (request.authenticatedMailbox = [] ↔ request.systemSenderID = []) ∧
      request.expansionSources.length ≤ maxQueueSources - 2))
    "invalid submission authority")
  let envelope ← Task.of (p.admittedEnvelope request.envelopeSender)
  let authority ← p.authoritySources request envelope
  Task.of (check (request.expansionSources.all fun source =>
      isExpansionKind source.kind && validQueueObjectID source.objectID)
    "invalid expansion source")
  return authority ++ request.expansionSources

end Platform

def Action.text : Action → String
  | .ok => "ok"
  | .reject => "reject"
  | .defer => "defer"

def policyService : ActorRef := ⟨ascii "service", ascii "outbound-policy"⟩

def holdActor (configured : ActorRef) : ActorRef :=
  if configured.type = [] ∨ configured.id = [] then policyService else configured

/-- A hold is recorded before the deferral is returned. -/
def requireIfHeld (actor : ActorRef) (correlationID queueID : Text)
    (decision : Decision) : Service Unit :=
  if decision.action = .defer ∧ decision.reason = .policyHold then do
    let now ← Task.observe (ask .clock)
    Task.attempt (ask (.requireHold ⟨now, holdActor actor, correlationID, queueID⟩ decision))
  else pure ()

def unavailableDecision (reason : Error) : Decision × Option Error :=
  ({ action := .defer, reason := .unavailable }, some reason)

namespace Platform

variable (p : Platform)

/-- Rejections and deferrals of a submission leave an event. -/
def recordSubmissionDecision (correlationID recipient : Text)
    (decision : Decision) : Service Decision :=
  if decision.action = .ok then pure decision
  else do
    let _ ← Task.of (p.recipientDomain recipient)
    let now ← Task.observe (ask .clock)
    Task.attempt (ask (.writeAudit {
      time := now
      actor := policyService
      action := "outbound.policy." ++ decision.action.text
      resourceType := "outbound_submission"
      resourceID := ascii "submission"
      correlationID := correlationID
      result := if decision.action = .reject then "denied" else "failure" }))
    return decision

/-- The canonical form of a recipient, if it is one of the record. -/
def knownRecipient (record : QueueRecord) (recipient : Text) : Option Text :=
  match p.normalizeQueueRecipient recipient with
  | .ok (canonical, _) =>
    if sortedStringContains record.recipients canonical then some canonical
    else none
  | .error _ => none

def decideSubmission (correlationID : Text) (request : EnforcementRequest) :
    Service Decision := do
  let sources ← p.submissionSources request
  let governing ← Task.attempt (ask (.resolve sources))
  p.recordSubmissionDecision correlationID request.recipient
    (p.evaluate ⟨.submission, [], request.recipient, governing⟩)

def decideTransport (actor : ActorRef) (correlationID : Text)
    (request : EnforcementRequest) : Service Decision := do
  Task.of (check (decide (request.stage = .transport ∧
      request.authenticatedMailbox = [] ∧ request.systemSenderID = [] ∧
      request.envelopeSender = [] ∧ request.expansionSources = []))
    "invalid outbound enforcement stage request")
  let record ← p.loadQueue request.queueID
  let recipient ← Task.of (require (p.knownRecipient record request.recipient)
    "transport recipient is absent from immutable queue provenance")
  let governing ← Task.attempt (ask (.resolve record.sources))
  let decision := p.evaluate ⟨.transport, record.queueID, recipient, governing⟩
  requireIfHeld actor correlationID record.queueID decision
  return decision

def decideTask (actor : ActorRef) (correlationID : Text)
    (request : EnforcementRequest) : Service Decision := do
  Task.of (check (validPolicyCorrelationID correlationID)
    "outbound enforcement service is unavailable")
  if request.stage = .submission then p.decideSubmission correlationID request
  else p.decideTransport actor correlationID request

/-- The decision together with the error that made it unavailable. -/
def decideRequest (actor : ActorRef) (correlationID : Text) (request : EnforcementRequest) :
    Program interface (Decision × Option Error) := do
  match ← (p.decideTask actor correlationID request).run with
  | .ok decision => return (decision, none)
  | .error reason => return unavailableDecision reason

end Platform

end GotthMail
