/-
The confirmed change of a domain's outbound scope.  A plan reads the domain,
its enabled aliases and the queued recipients it would affect, and digests
them; applying recomputes the plan in one transaction and changes the domain
only under the digest that was confirmed.
-/
import GotthMail.Json
import GotthMail.Register
import GotthMail.Resolve

namespace GotthMail

open Bytes Framing Sha256 Relational

structure Impact where
  aliases : Nat
  externalTargets : Nat
  queuedRecipients : Nat
deriving DecidableEq, Repr

structure ChangePlan where
  digest : Text
  domainID : Uuid
  domain : Text
  currentScope : Scope
  requestedScope : Scope
  revision : Nat
  impact : Impact
  stateDigest : Text
  affectedQueueIDs : List Text
deriving DecidableEq

def maxPolicyAliases : Nat := 100000

def maxAliasTargetJSONBytes : Nat := 2 ^ 20

def maxAliasTargets : Nat := 10000

def maxPolicyTargetBytes : Nat := 64 * 2 ^ 20

def maxPolicyQueuedRecipients : Nat := 1000000

/-- The values of one alias in the transcript of a plan. -/
def AliasRow.values (row : AliasRow) : List Text := [row.id.text, row.localPart, row.targetsJSON]

/-- One queued recipient with the identity of its message. -/
structure QueuedRow where
  queueID : Text
  arrival : Text
  recipients : Text
  sources : Text
  recipient : Text
deriving DecidableEq

def QueuedRow.values (row : QueuedRow) : List Text :=
  [row.queueID, row.arrival, row.recipients, row.sources, row.recipient]

/-- The running state of the loop over alias rows. -/
structure AliasScan where
  impact : Impact
  aliases : Nat
  totalBytes : Nat
  transcript : List Text

/-- The running state of the loop over queued recipients. -/
structure QueuedScan where
  count : Nat
  queueIDs : List Text
  lastQueueID : Text
  transcript : List Text

namespace Database

variable (locale : Locale) (db : Database)

def enabledAliases (domainID : Uuid) : List AliasRow :=
  byteOrder.sortBy (fun row => row.id.text) (db.aliases.rows.filter fun row =>
      decide (row.domainID = domainID) && row.enabled)

/-- What the query returns: one row more than the limit at most. -/
def policyAliases (domainID : Uuid) : List AliasRow :=
  (db.enabledAliases domainID).take (maxPolicyAliases + 1)

/-- The message of a child row, unless it has been released. -/
def activeMessage (queueID : Text) : Option MessageRow :=
  (db.messages.find? queueID).filter fun row => decide (row.holdState ≠ .released)

def unresolvedSources : List SourceRow :=
  db.sources.rows.filter fun row => (db.activeMessage row.queueID).isSome &&
      (db.sourceObject row.source).isNone

def sourceInDomain (domainID : Uuid) (queueID : Text) : Bool :=
  db.sources.rows.any fun row => decide (row.queueID = queueID) &&
      (db.sourceObject row.source).any fun object => decide (object.domainID = domainID)

/-- The joined row of a recipient that the change would put out of scope. -/
def queuedRow (domainID : Uuid) (domain : Text) (row : RecipientRow) :
    Option QueuedRow := do
  let message ← db.activeMessage row.queueID
  if row.domain ≠ domain && db.sourceInDomain domainID row.queueID then
    some ⟨message.queueID, message.arrivalFingerprint,
      message.recipientSetDigest, message.sourceSetDigest, row.recipient⟩
  else none

def queuedRows (domainID : Uuid) (domain : Text) : List QueuedRow :=
  (locale.collation.lex locale.collation).sortBy (fun row => (row.queueID, row.recipient))
    (db.recipients.rows.filterMap (db.queuedRow domainID domain))

end Database

namespace Platform

variable (p : Platform)

def externalTargets (domain : Text) (targets : List Text) :
    Except Error Nat := do
  let domains ← targets.mapM fun target =>
    require (p.recipientDomain target).toOption "stored alias target is invalid"
  return (domains.filter (· ≠ domain)).length

def scanAlias (domain : Text) (found : AliasScan) (row : AliasRow) :
    Except Error AliasScan := do
  check (decide (found.aliases + 1 ≤ maxPolicyAliases)) "outbound policy alias limit exceeded"
  check (validQueueObjectID row.id.text && decide (row.localPart ≠ []) &&
      decide (row.targetsJSON.length ≤ maxAliasTargetJSONBytes) &&
      decide (found.totalBytes + row.targetsJSON.length ≤ maxPolicyTargetBytes))
    "outbound policy alias target data limit exceeded"
  let targets ← require (p.decodeStrings row.targetsJSON) "stored alias targets are invalid"
  check (decide (0 < targets.length ∧ targets.length ≤ maxAliasTargets))
    "stored alias targets are invalid"
  let external ← p.externalTargets domain targets
  return {
    impact :=
      if 0 < external then
        { found.impact with
          aliases := found.impact.aliases + 1
          externalTargets := found.impact.externalTargets + external }
      else found.impact
    aliases := found.aliases + 1
    totalBytes := found.totalBytes + row.targetsJSON.length
    transcript := found.transcript ++ row.values }

def scanQueued (domain : Text) (found : QueuedScan) (row : QueuedRow) :
    Except Error QueuedScan := do
  check (decide (found.count < maxPolicyQueuedRecipients))
    "outbound queue recipient impact limit exceeded"
  check (validLongQueueID row.queueID && validLowerHexDigest row.arrival &&
      validLowerHexDigest row.recipients && validLowerHexDigest row.sources &&
      match p.normalizeQueueRecipient row.recipient with
      | .ok (canonical, recipientDomain) =>
        decide (canonical = row.recipient ∧ recipientDomain ≠ domain)
      | .error _ => false)
    "active outbound queue state is invalid"
  return {
    count := found.count + 1
    queueIDs :=
      if row.queueID = found.lastQueueID then found.queueIDs
      else found.queueIDs ++ [row.queueID]
    lastQueueID := row.queueID
    transcript := found.transcript ++ row.values }

end Platform

def Scope.text : Scope → Text
  | .unrestricted => ascii "unrestricted"
  | .sameDomainOnly => ascii "same_domain_only"
  | .other raw => raw

namespace ChangePlan

/-- The document that a plan digest covers. -/
def payload (plan : ChangePlan) : Text :=
  ascii "\x7b\"contract\":" ++ Json.quote (ascii "gotth-mail/outbound-policy-plan/v2") ++
    ascii ",\"domain_id\":" ++ Json.quote plan.domainID.text ++
    ascii ",\"domain\":" ++ Json.quote plan.domain ++
    ascii ",\"current_scope\":" ++ Json.quote plan.currentScope.text ++
    ascii ",\"requested_scope\":" ++ Json.quote plan.requestedScope.text ++
    ascii ",\"revision\":" ++ decimal plan.revision ++
    ascii ",\"impact\":\x7b\"aliases\":" ++ decimal plan.impact.aliases ++
    ascii ",\"external_targets\":" ++ decimal plan.impact.externalTargets ++
    ascii ",\"queued_recipients\":" ++ decimal plan.impact.queuedRecipients ++
    ascii "\x7d,\"state_digest\":" ++ Json.quote plan.stateDigest ++ ascii "\x7d"

end ChangePlan

def planDigest (plan : ChangePlan) : Except Error Text := do
  check (validLowerHexDigest plan.stateDigest) "invalid outbound policy state digest"
  return sumHex plan.payload

def equalPlanDigest (expected actual : Text) : Bool :=
  decide (expected.length = 64 ∧ actual.length = 64) &&
    match decodeHex expected, decodeHex actual with
    | some left, some right =>
      decide (left.length = 32 ∧ right.length = 32) && left == right
    | _, _ => false

def aliasContract : Text := ascii "gotth-mail/outbound-policy-alias-state/v1"

def queueContract : Text := ascii "gotth-mail/outbound-policy-queue-state/v1"

def stateContract : Text := ascii "gotth-mail/outbound-policy-state/v1"

namespace Database

variable (locale : Locale) (p : Platform)

def loadAliasImpact (domainID : Uuid) (domain : Text) (db : Database) :
    Except Error (Impact × Text) := do
  let found ← (db.policyAliases domainID).foldlM (p.scanAlias domain)
    ⟨⟨0, 0, 0⟩, 0, 0, [aliasContract]⟩
  return (found.impact, digestStrings found.transcript)

def loadQueuedRecipientImpact (domainID : Uuid) (domain : Text)
    (db : Database) : Except Error (Nat × Text × List Text) := do
  check (db.unresolvedSources.length == 0)
    "active outbound queue contains unresolved policy sources"
  let found ← (db.queuedRows locale domainID domain).foldlM
    (p.scanQueued domain) ⟨0, [], [], [queueContract]⟩
  return (found.count, digestStrings found.transcript, found.queueIDs)

def enabledDomain (domain : Text) (db : Database) : Option DomainRow :=
  db.domains.rows.find? fun row => decide (row.name = domain) && row.enabled

def loadChangePlan (rawDomain : Text) (requested : Scope) (db : Database) :
    Except Error ChangePlan := do
  check (validScope requested) "invalid outbound scope"
  let domain ← p.normalizeDomain rawDomain
  let row ← require (db.enabledDomain domain) "enabled domain not found"
  checkSql (decide (0 ≤ row.revision))
  check (validScope row.scope && row.revision != 0) "stored outbound policy state is invalid"
  let (impact, aliasDigest) ← db.loadAliasImpact p row.id row.name
  let (queuedRecipients, queueDigest, affectedQueueIDs) ←
    db.loadQueuedRecipientImpact locale p row.id row.name
  let plan : ChangePlan := {
    digest := []
    domainID := row.id
    domain := row.name
    currentScope := row.scope
    requestedScope := requested
    revision := row.revision.toNat
    impact := { impact with queuedRecipients }
    stateDigest := digestStrings [stateContract, aliasDigest, queueDigest]
    affectedQueueIDs }
  let digest ← planDigest plan
  return { plan with digest }

/-- Without mutating policy. -/
def previewChange (domain : Text) (requested : Scope) (db : Database) :
    Except Error ChangePlan :=
  db.loadChangePlan locale p domain requested

end Database

structure ActivationReconciliation where
  selected : Nat
  held : Nat
  alreadyHeld : Nat
  noLongerBlocked : Nat
  failed : Nat
deriving DecidableEq, Repr

structure ChangeResult where
  plan : ChangePlan
  changed : Bool
  reconciliation : Option ActivationReconciliation := none
deriving DecidableEq

def validPolicyCorrelationID (value : Text) : Bool :=
  decide (0 < value.length ∧ value.length ≤ 256) && trimSpace value == value &&
    (decode value).all fun rune => decide (0x20 ≤ rune.value ∧ rune.value ≠ 0x7f)

/-- Append one event; its texts have to fit their columns. -/
def Database.writeAudit (event : AuditEvent) (db : Database) :
    Except Error Database := do
  checkSql (storable event.actor.type && storable event.actor.id &&
    storable event.resourceID && storable event.correlationID)
  return { db with audit := db.audit ++ [event] }

def DomainRow.rescope (requested : Scope) (now : Time) (row : DomainRow) :
    DomainRow :=
  { row with scope := requested, revision := row.revision + 1, updatedAt := now }

namespace ChangePlan

/-- The revision that the plan was computed from. -/
def sees (plan : ChangePlan) (row : DomainRow) : Bool := decide (row.revision = plan.revision)

def event (plan : ChangePlan) (now : Time) (actor : ActorRef)
    (correlationID : Text) : AuditEvent where
  time := now
  actor := actor
  action := "domain.outbound_scope.update"
  resourceType := "domain"
  resourceID := plan.domainID.text
  correlationID := correlationID
  result := "success"

end ChangePlan

namespace Database

variable (locale : Locale) (p : Platform)

/-- Store the requested scope under the revision that the plan saw. -/
def updateScope (plan : ChangePlan) (now : Time) (db : Database) :
    Except Error Database := do
  let rows := db.domains.matching plan.domainID plan.sees
  checkSql (rows.all fun row => decide (row.revision + 1 < 2 ^ 63))
  check (rows.length == 1) "outbound policy revision changed"
  return { db with
    domains := db.domains.update (fun row => decide (row.id = plan.domainID) && plan.sees row)
      (DomainRow.rescope plan.requestedScope now) fun _ => rfl }

def applyChangeTx (now : Time) (actor : ActorRef) (correlationID domain : Text)
    (requested : Scope) (confirmation : Text) (db : Database) :
    Except Error (ChangeResult × Database) := do
  check (decide (actor.type ≠ [] ∧ actor.id ≠ []) && validPolicyCorrelationID correlationID)
    "actor and correlation ID are required"
  let plan ← db.loadChangePlan locale p domain requested
  check (equalPlanDigest plan.digest confirmation)
    "confirmation digest does not match current outbound policy state"
  if plan.currentScope = plan.requestedScope then
    return ({ plan, changed := false }, db)
  let next ← db.updateScope plan now
  let next ← next.writeAudit (plan.event now actor correlationID)
  return ({ plan, changed := true }, next)

/-- One serializable transaction.  When the scope is the requested one already, there
is nothing to COMMIT. -/
def applyChange (ending : CommitEnd) (now : Time) (actor : ActorRef)
    (correlationID domain : Text) (requested : Scope) (confirmation : Text) (db : Database) :
    Except Error ChangeResult × Database :=
  match db.applyChangeTx locale p now actor correlationID domain requested confirmation with
  | .error reason => (.error reason, db)
  | .ok (result, next) =>
    if result.changed then ending.settle .sql result db next else (.ok result, next)

end Database

end GotthMail
