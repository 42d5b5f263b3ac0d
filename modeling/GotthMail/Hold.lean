/-
The hold of a queue file.  Five transactions write the state of its row, each
under a condition on the state it leaves; the row keeps its identity, its
policy state stays readable and its attempts only grow.
-/
import GotthMail.ChangePlan

namespace GotthMail

open Bytes Relational

section Revisions

variable {p : Platform}

/-- The loop over a revision map sees its entries. -/
theorem exists_entries (p : Platform) (revisions : RevisionMap) :
    ∃ entries : List (Sigma fun _ : Text => Nat), (∀ domain revision, ⟨domain, revision⟩ ∈ entries ↔
        revisions.lookup domain = some revision) ∧
      ∀ canonical, p.collectRevisions revisions = some canonical ↔
        Registry.Consistent p.revisionClaim entries ∧
          Registry.Holds p.revisionClaim entries canonical := by
  induction revisions using Finmap.induction_on with
  | H entries =>
    refine ⟨entries.entries, fun domain revision => ?_, fun canonical => ?_⟩
    · rw [Finmap.lookup_toFinmap, ← Option.mem_def, AList.lookup,
        List.mem_dlookup_iff entries.nodupKeys]
    · rw [Platform.collectRevisions, Finmap.liftOn_toFinmap]
      exact Registry.foldlM_eq_some_iff

theorem revisionClaim_eq_some_iff {domain key : Text} {revision value : Nat} :
    p.revisionClaim ⟨domain, revision⟩ = some (key, value) ↔
      p.normalizeDomain domain = .ok key ∧ revision = value ∧ value ≠ 0 := by
  cases hdomain : p.normalizeDomain domain with
  | error reason => simp [Platform.revisionClaim, hdomain]
  | ok normal =>
    by_cases hzero : revision = 0
    · simp only [Platform.revisionClaim, hdomain, hzero, if_true, reduceCtorEq, false_iff]
      rintro ⟨_, hvalue, hne⟩
      exact hne hvalue.symm
    · simp only [Platform.revisionClaim, hdomain, hzero, if_false,
        Option.some.injEq, Prod.mk.injEq, Except.ok.injEq]
      constructor
      · rintro ⟨hkey, rfl⟩
        exact ⟨hkey, rfl, hzero⟩
      · rintro ⟨hkey, hvalue, _⟩
        exact ⟨hkey, hvalue⟩

variable {canonical revisions : RevisionMap}

/-- The canonical map holds the entries of the other under their normal names. -/
theorem lookup_of_collectRevisions
    (hcollect : p.collectRevisions revisions = some canonical) (key : Text) (value : Nat) :
    canonical.lookup key = some value ↔ ∃ domain, revisions.lookup domain = some value ∧
        p.normalizeDomain domain = .ok key ∧ value ≠ 0 := by
  rcases exists_entries p revisions with ⟨entries, hentries, hiff⟩
  rw [((hiff canonical).mp hcollect).2 key value]
  constructor
  · rintro ⟨⟨domain, revision⟩, hentry, hclaim⟩
    rcases revisionClaim_eq_some_iff.mp hclaim with ⟨hkey, rfl, hvalue⟩
    exact ⟨domain, (hentries _ _).mp hentry, hkey, hvalue⟩
  · rintro ⟨domain, hlookup, hkey, hvalue⟩
    exact ⟨⟨domain, value⟩, (hentries _ _).mpr hlookup,
      revisionClaim_eq_some_iff.mpr ⟨hkey, rfl, hvalue⟩⟩

theorem collectRevisions_canonical (hp : p.Lookup)
    (hcollect : p.collectRevisions revisions = some canonical) :
    p.collectRevisions canonical = some canonical := by
  rcases exists_entries p canonical with ⟨entries, hentries, hiff⟩
  have hclaim : ∀ domain revision, ⟨domain, revision⟩ ∈ entries →
      p.revisionClaim ⟨domain, revision⟩ = some (domain, revision) := by
    intro domain revision hentry
    rcases (lookup_of_collectRevisions hcollect domain revision).mp
      ((hentries _ _).mp hentry) with ⟨raw, _, hnormal, hrevision⟩
    exact revisionClaim_eq_some_iff.mpr ⟨hp.normalizeDomain_idempotent hnormal, rfl, hrevision⟩
  rw [hiff]
  refine ⟨⟨?_, ?_⟩, ?_⟩
  · rintro ⟨domain, revision⟩ hentry
    exact ⟨domain, revision, hclaim _ _ hentry⟩
  · rintro ⟨first, revision⟩ hfirst ⟨second, another⟩ hsecond key value other hvalue hother
    rw [hclaim _ _ hfirst] at hvalue
    rw [hclaim _ _ hsecond] at hother
    cases hvalue
    cases hother
    have hlookup := (hentries _ _).mp hfirst
    rw [(hentries _ _).mp hsecond] at hlookup
    exact (Option.some.inj hlookup).symm
  · intro key value
    constructor
    · intro hlookup
      have hentry := (hentries _ _).mpr hlookup
      exact ⟨_, hentry, hclaim _ _ hentry⟩
    · rintro ⟨⟨domain, revision⟩, hentry, hvalue⟩
      rw [hclaim _ _ hentry] at hvalue
      cases hvalue
      exact (hentries _ _).mp hentry

theorem canonicalPolicyRevisions_ok_iff :
    p.canonicalPolicyRevisions revisions = .ok canonical ↔
      (0 < revisions.keys.card ∧ revisions.keys.card ≤ maxGoverningDomains) ∧
        p.collectRevisions revisions = some canonical := by
  unfold Platform.canonicalPolicyRevisions
  by_cases hbounds : revisions.keys.card = 0 ∨ maxGoverningDomains < revisions.keys.card
  · rw [if_pos hbounds]
    simp only [reduceCtorEq, false_iff, not_and]
    omega
  · rw [if_neg hbounds]
    have hsize : 0 < revisions.keys.card ∧ revisions.keys.card ≤ maxGoverningDomains := by omega
    cases hcollect : p.collectRevisions revisions with
    | none =>
      split_ifs <;> simp
    | some found => simp [hsize]

theorem card_keys_le_of_collectRevisions
    (hcollect : p.collectRevisions revisions = some canonical) :
    canonical.keys.card ≤ revisions.keys.card := by
  let normal : Text → Text := fun domain => ((p.normalizeDomain domain).toOption).getD []
  have hsubset : canonical.keys ⊆ revisions.keys.image normal := by
    intro key hkey
    rw [Finmap.mem_keys, ← Finmap.lookup_isSome, Option.isSome_iff_exists] at hkey
    rcases hkey with ⟨value, hvalue⟩
    rcases (lookup_of_collectRevisions hcollect key value).mp hvalue with
      ⟨domain, hdomain, hnormal, _⟩
    refine Finset.mem_image.mpr ⟨domain, ?_, ?_⟩
    · rw [Finmap.mem_keys, ← Finmap.lookup_isSome, hdomain]
      rfl
    · simp [normal, hnormal, Except.toOption]
  exact (Finset.card_le_card hsubset).trans Finset.card_image_le

/-- What a hold stores is read back as it was stored. -/
theorem canonicalRevisions_of_ok (hp : p.Lookup)
    (hcanonical : p.canonicalPolicyRevisions revisions = .ok canonical) :
    0 < canonical.keys.card ∧ p.CanonicalRevisions canonical := by
  rcases canonicalPolicyRevisions_ok_iff.mp hcanonical with
    ⟨⟨hpos, hmax⟩, hcollect⟩
  have hcard := card_keys_le_of_collectRevisions hcollect
  have hsome : 0 < canonical.keys.card := by
    rcases Finset.card_pos.mp hpos with ⟨domain, hdomain⟩
    rw [Finmap.mem_keys, ← Finmap.lookup_isSome, Option.isSome_iff_exists] at hdomain
    rcases hdomain with ⟨revision, hrevision⟩
    rcases exists_entries p revisions with ⟨entries, hentries, hiff⟩
    rcases ((hiff canonical).mp hcollect).1.wellFormed _
      ((hentries _ _).mpr hrevision) with ⟨key, value, hclaim⟩
    have hlookup := (((hiff canonical).mp hcollect).2 key value).mpr
      ⟨_, (hentries _ _).mpr hrevision, hclaim⟩
    refine Finset.card_pos.mpr ⟨key, ?_⟩
    rw [Finmap.mem_keys, ← Finmap.lookup_isSome, hlookup]
    rfl
  refine ⟨hsome, canonical, ?_, by simp [revisionMapsEqual]⟩
  exact canonicalPolicyRevisions_ok_iff.mpr
    ⟨⟨hsome, hcard.trans hmax⟩, collectRevisions_canonical hp hcollect⟩

end Revisions

/-! The rows that the hold protocol writes. -/

namespace MessageRow

/-- Policy requires a hold. -/
def requireHold (reason : Reason) (revisions : RevisionMap) (now : Time)
    (row : MessageRow) : MessageRow :=
  { row with
    holdState := .required
    policyReason := some reason
    policyRevisions := some revisions
    lastErrorCode := none
    updatedAt := now }

def start (state : HoldState) (now : Time) (row : MessageRow) : MessageRow :=
  { row with
    holdState := state
    reconciliationAttempts := row.reconciliationAttempts + 1
    lastErrorCode := none
    updatedAt := now }

/-- An attempt ends, with an error code if it failed. -/
def finish (state : HoldState) (code : Option Text) (now : Time) (row : MessageRow) : MessageRow :=
  { row with holdState := state, lastErrorCode := code, updatedAt := now }

end MessageRow

/-- Who moves which queue file, and when. -/
structure Mover where
  now : Time
  actor : ActorRef
  correlationID : Text
  queueID : Text
deriving DecidableEq

def Mover.event (mover : Mover) (action result : String) : AuditEvent where
  time := mover.now
  actor := mover.actor
  action := action
  resourceType := "postfix_queue"
  resourceID := mover.queueID
  correlationID := mover.correlationID
  result := result

namespace Database

variable (locale : Locale) (p : Platform)

/-- One conditional update of a queue row and its event. -/
def moveQueue (queueID : Text) (guard : HoldState → Bool) (change : MessageRow → MessageRow)
    (hkey : ∀ row, (change row).queueID = row.queueID) (stale : String)
    (event : AuditEvent) (db : Database) : Except Error (Unit × Database) := do
  let rows := db.messages.matching queueID fun row => guard row.holdState
  checkSql (rows.all fun row => locale.messageChecks (change row))
  check (rows.length == 1) stale
  let next := { db with
    messages := db.messages.update
      (fun row => decide (row.queueID = queueID) && guard row.holdState) change hkey }
  let next ← next.writeAudit event
  return ((), next)

def reconcilable (state : HoldState) : Bool :=
  decide (state = .required ∨ state = .reconciliationError ∨
    state = .reconciling ∨ state = .applied)

def releasable (state : HoldState) : Bool :=
  decide (state = .applied ∨ state = .releaseError ∨ state = .releaseReconciling)

def startQueueReconciliation (mover : Mover) (db : Database) : Except Error (Unit × Database) :=
  db.moveQueue locale mover.queueID reconcilable
    (MessageRow.start .reconciling mover.now) (fun _ => rfl)
    "outbound queue reconciliation state changed"
    (mover.event "queue.policy_hold.reconcile_start" "success")

/-- The column for an error code; no code is stored as NULL. -/
def errorCode (code : Text) : Option Text := if code = [] then none else some code

/-- What the two ends of a move share: the state that the row must have, the two that
it may get, and the events of the failure and of the success. -/
def finishQueue (kind : String) (prior success failure : HoldState)
    (failed succeeded : String) (mover : Mover) (state : HoldState) (code : Text)
    (db : Database) : Except Error (Unit × Database) := do
  check (decide (state = success ∨ state = failure))
    ("invalid outbound queue " ++ kind ++ " result")
  check (decide (state = failure → validQueueErrorCode code))
    ("invalid outbound queue " ++ kind ++ " error code")
  db.moveQueue locale mover.queueID (fun found => decide (found = prior))
    (MessageRow.finish state (errorCode code) mover.now) (fun _ => rfl)
    ("outbound queue " ++ kind ++ " state changed")
    (if state = failure then mover.event failed "failure" else mover.event succeeded "success")

def finishQueueReconciliation : Mover → HoldState → Text → Database →
    Except Error (Unit × Database) :=
  finishQueue locale "reconciliation" .reconciling .applied .reconciliationError
    "queue.policy_hold.failed" "queue.policy_hold.applied"

def startQueueRelease (mover : Mover) (db : Database) : Except Error (Unit × Database) :=
  db.moveQueue locale mover.queueID releasable
    (MessageRow.start .releaseReconciling mover.now) (fun _ => rfl)
    "outbound queue release state changed" (mover.event "queue.policy_hold.release_start" "success")

def finishQueueRelease : Mover → HoldState → Text → Database → Except Error (Unit × Database) :=
  finishQueue locale "release" .releaseReconciling .released .releaseError
    "queue.policy_hold.release_failed" "queue.policy_hold.released"

/-- The same requirement again keeps the state of the hold. -/
def alreadyRequired (row : MessageRow) (reason : Reason) (prior revisions : RevisionMap) : Bool :=
  decide (row.policyReason = some reason) && revisionMapsEqual prior revisions &&
    reconcilable row.holdState

def requireHoldTx (mover : Mover) (decision : Decision) (db : Database) :
    Except Error (Unit × Database) := do
  check (decide (mover.actor.type ≠ [] ∧ mover.actor.id ≠ [] ∧
      mover.correlationID ≠ [])) "actor and correlation ID are required"
  check (validLongQueueID mover.queueID &&
      decide (decision.action = .defer ∧ decision.reason = .policyHold))
    "invalid outbound queue hold decision"
  let revisions ← p.canonicalPolicyRevisions decision.revisions
  let row ← require (db.messages.find? mover.queueID) "outbound queue record not found"
  check (validHoldState row.holdState) "stored outbound queue state is invalid"
  let prior ← require row.policyRevisions "stored outbound queue policy revisions are invalid"
  check (prior.keys.card == 0 ||
      match p.canonicalPolicyRevisions prior with
      | .ok canonical => revisionMapsEqual prior canonical
      | .error _ => false)
    "stored outbound queue policy revisions are invalid"
  check (validQueuePolicyState row.holdState row.policyReason prior)
    "stored outbound queue policy state is invalid"
  if alreadyRequired row decision.reason prior revisions then
    return ((), db)
  -- The row was read for update, so the statement finds it.
  db.moveQueue locale mover.queueID (fun _ => true)
    (MessageRow.requireHold decision.reason revisions mover.now) (fun _ => rfl)
    "outbound queue record not found" (mover.event "queue.policy_hold.required" "success")

end Database

/-- What one transaction may do to the row of a queue file. -/
inductive HoldStep (p : Platform) : MessageRow → MessageRow → Prop
  | requireHold {row : MessageRow} {raw revisions : RevisionMap} {now : Time}
      (hrevisions : p.canonicalPolicyRevisions raw = .ok revisions) :
      HoldStep p row (row.requireHold .policyHold revisions now)
  | startReconciliation {row : MessageRow} {now : Time}
      (hstate : Database.reconcilable row.holdState = true) :
      HoldStep p row (row.start .reconciling now)
  | finishReconciliation {row : MessageRow} {state : HoldState} {code : Text}
      {now : Time} (hprior : row.holdState = .reconciling)
      (hstate : state = .applied ∨ state = .reconciliationError) :
      HoldStep p row (row.finish state (Database.errorCode code) now)
  | startRelease {row : MessageRow} {now : Time}
      (hstate : Database.releasable row.holdState = true) :
      HoldStep p row (row.start .releaseReconciling now)
  | finishRelease {row : MessageRow} {state : HoldState} {code : Text}
      {now : Time} (hprior : row.holdState = .releaseReconciling)
      (hstate : state = .released ∨ state = .releaseError) :
      HoldStep p row (row.finish state (Database.errorCode code) now)

/-- Only the row of one queue file has changed, and the audit log has grown. -/
structure Database.Moved (db next : Database) (queueID : Text)
    (row after : MessageRow) : Prop where
  before : db.messages.find? queueID = some row
  now : next.messages.find? queueID = some after
  others : ∀ other ≠ queueID,
    next.messages.find? other = db.messages.find? other
  recipients : next.recipients = db.recipients
  sources : next.sources = db.sources
  domains : next.domains = db.domains
  mailboxes : next.mailboxes = db.mailboxes
  aliases : next.aliases = db.aliases
  systemSenders : next.systemSenders = db.systemSenders

section Specifications

variable {locale : Locale} {p : Platform} {db next : Database} {mover : Mover}
  {row after : MessageRow}

variable {u : Unit} {state : HoldState}

theorem moveQueue_ok {queueID : Text} {guard : HoldState → Bool} {change : MessageRow → MessageRow}
    {hkey : ∀ row, (change row).queueID = row.queueID} {stale : String} {event : AuditEvent}
    (hmove : db.moveQueue locale queueID guard change hkey stale event = .ok (u, next)) :
    ∃ row, guard row.holdState = true ∧ locale.messageChecks (change row) = true ∧
      db.Moved next queueID row (change row) ∧
      next.audit = db.audit ++ [event] := by
  simp only [Database.moveQueue, Database.writeAudit, bind_ok_iff,
    checkSql_ok_iff, check_ok_iff, beq_iff_eq, Table.matching_length_eq_one_iff,
    pure_ok_iff, Prod.mk.injEq] at hmove
  rcases hmove with ⟨_, hchecks, _, ⟨row, hrow, hguard⟩, _, ⟨_, _, rfl⟩, _, rfl⟩
  rw [Table.matching_eq, hrow] at hchecks
  simp only [Option.filter, hguard, if_true, Option.toList_some, List.all_cons,
    List.all_nil, Bool.and_true] at hchecks
  have hid : row.queueID = queueID := Table.find?_key hrow
  have hfind := Table.find?_update db.messages
    (fun row => decide (row.queueID = queueID) && guard row.holdState) change hkey
  refine ⟨row, hguard, hchecks, ?_, rfl⟩
  constructor
  case before => exact hrow
  case now =>
    refine (hfind queueID).trans ?_
    rw [hrow, Option.map_some]
    simp [hid, hguard]
  case others =>
    intro other hother
    refine (hfind other).trans ?_
    cases hrow' : db.messages.find? other with
    | none => rfl
    | some found =>
      have hne : found.queueID ≠ queueID := by
        rw [Table.find?_key hrow']
        exact hother
      simp [hne]
  all_goals rfl

theorem finishQueue_ok {kind failed succeeded : String} {prior success failure : HoldState}
    {code : Text} (hfinish : db.finishQueue locale kind prior success failure failed succeeded mover
      state code = .ok (u, next)) :
    (state = success ∨ state = failure) ∧ ∃ row, row.holdState = prior ∧
        locale.messageChecks (row.finish state (Database.errorCode code) mover.now) = true ∧
        db.Moved next mover.queueID row (row.finish state (Database.errorCode code) mover.now) := by
  simp only [Database.finishQueue, bind_ok_iff, check_ok_iff, decide_eq_true_eq] at hfinish
  rcases hfinish with ⟨_, hstate, _, _, hmove⟩
  rcases moveQueue_ok hmove with ⟨row, hguard, hchecks, hmoved, _⟩
  exact ⟨hstate, row, of_decide_eq_true hguard, hchecks, hmoved⟩

theorem requireHoldTx_ok {decision : Decision}
    (hrequire : db.requireHoldTx locale p mover decision = .ok (u, next)) :
    (next = db ∧ ∃ row, db.messages.find? mover.queueID = some row ∧
        Database.reconcilable row.holdState = true) ∨
      ∃ row revisions, p.canonicalPolicyRevisions decision.revisions = .ok revisions ∧
        locale.messageChecks (row.requireHold .policyHold revisions mover.now) = true ∧
        db.Moved next mover.queueID row (row.requireHold .policyHold revisions mover.now) := by
  simp only [Database.requireHoldTx, bind_ok_iff, check_ok_iff, require_ok_iff,
    Bool.and_eq_true, decide_eq_true_eq] at hrequire
  rcases hrequire with ⟨_, _, _, ⟨_, _, hreason⟩, revisions, hrevisions, row, hrow,
    _, _, prior, _, _, _, _, _, hrest⟩
  split at hrest
  · next halready =>
      cases hrest
      simp only [Database.alreadyRequired, Bool.and_eq_true] at halready
      exact .inl ⟨rfl, row, hrow, halready.2⟩
  · rcases moveQueue_ok hrest with ⟨found, _, hchecks, hmoved, _⟩
    rw [hreason] at hchecks hmoved
    exact .inr ⟨found, revisions, hrevisions, hchecks, hmoved⟩

/-- The fields of a row that no transaction touches. -/
structure MessageRow.SameIdentity (row after : MessageRow) : Prop where
  queueID : after.queueID = row.queueID
  fingerprint : after.arrivalFingerprint = row.arrivalFingerprint
  sender : after.envelopeSender = row.envelopeSender
  recipientDigest : after.recipientSetDigest = row.recipientSetDigest
  sourceDigest : after.sourceSetDigest = row.sourceSetDigest
  firstSeen : after.firstSeenAt = row.firstSeenAt

theorem MessageRow.SameIdentity.refl (row : MessageRow) : row.SameIdentity row :=
  ⟨rfl, rfl, rfl, rfl, rfl, rfl⟩

theorem MessageRow.SameIdentity.trans {first second third : MessageRow}
    (hfirst : first.SameIdentity second) (hsecond : second.SameIdentity third) :
    first.SameIdentity third :=
  ⟨hsecond.queueID.trans hfirst.queueID, hsecond.fingerprint.trans hfirst.fingerprint,
    hsecond.sender.trans hfirst.sender, hsecond.recipientDigest.trans hfirst.recipientDigest,
    hsecond.sourceDigest.trans hfirst.sourceDigest, hsecond.firstSeen.trans hfirst.firstSeen⟩

theorem HoldStep.sameIdentity (hstep : HoldStep p row after) :
    row.SameIdentity after := by
  cases hstep <;> exact ⟨rfl, rfl, rfl, rfl, rfl, rfl⟩

theorem HoldStep.attempts_le (hstep : HoldStep p row after) :
    row.reconciliationAttempts ≤ after.reconciliationAttempts := by
  cases hstep with
  | startReconciliation => exact Int.le_add_one (Int.le_refl _)
  | startRelease => exact Int.le_add_one (Int.le_refl _)
  | requireHold => exact Int.le_refl _
  | finishReconciliation => exact Int.le_refl _
  | finishRelease => exact Int.le_refl _

/-- Past the pending state the policy state depends on the reason and the
revisions alone. -/
theorem validQueuePolicyState_of_ne {other : HoldState} {reason : Option Reason}
    {revisions : RevisionMap} (hstate : state ≠ .pending) (hother : other ≠ .pending)
    (hvalid : validQueuePolicyState state reason revisions = true) :
    validQueuePolicyState other reason revisions = true := by
  rw [validQueuePolicyState, if_neg hstate] at hvalid
  rw [validQueuePolicyState, if_neg hother]
  exact hvalid

theorem Platform.ValidPolicyState.start {now : Time} (hrow : p.ValidPolicyState row)
    (hprior : row.holdState ≠ .pending) (hstate : state ≠ .pending) :
    p.ValidPolicyState (row.start state now) :=
  ⟨hrow.reason, hrow.decoded, hrow.canonical, validQueuePolicyState_of_ne hprior hstate hrow.state⟩

theorem Platform.ValidPolicyState.finish {code : Option Text} {now : Time}
    (hrow : p.ValidPolicyState row) (hprior : row.holdState ≠ .pending)
    (hstate : state ≠ .pending) : p.ValidPolicyState (row.finish state code now) :=
  ⟨hrow.reason, hrow.decoded, hrow.canonical, validQueuePolicyState_of_ne hprior hstate hrow.state⟩

theorem ne_pending_of_reconcilable (hstate : Database.reconcilable state = true) :
    state ≠ .pending := by
  rintro rfl
  revert hstate
  decide

theorem ne_pending_of_releasable (hstate : Database.releasable state = true) :
    state ≠ .pending := by
  rintro rfl
  revert hstate
  decide

/-- Every transaction leaves a policy state that can be read back. -/
theorem HoldStep.validPolicyState (hp : p.Lookup) (hstep : HoldStep p row after)
    (hrow : p.ValidPolicyState row) : p.ValidPolicyState after := by
  cases hstep with
  | requireHold hrevisions =>
    rcases canonicalRevisions_of_ok hp hrevisions with ⟨hpos, hcanonical⟩
    refine ⟨rfl, rfl, .inr hcanonical, ?_⟩
    simp [validQueuePolicyState, validQueueReason, MessageRow.requireHold, hpos]
  | startReconciliation hstate =>
    exact hrow.start (ne_pending_of_reconcilable hstate) (by decide)
  | startRelease hstate =>
    exact hrow.start (ne_pending_of_releasable hstate) (by decide)
  | finishReconciliation hprior hstate =>
    refine hrow.finish (by rw [hprior]; decide) ?_
    rcases hstate with rfl | rfl <;> decide
  | finishRelease hprior hstate =>
    refine hrow.finish (by rw [hprior]; decide) ?_
    rcases hstate with rfl | rfl <;> decide

/-- A row that the load accepts stays one. -/
theorem HoldStep.validMessage (hp : p.Lookup) {queueID : Text}
    (hstep : HoldStep p row after) (hchecks : locale.messageChecks after = true)
    (hrow : p.ValidMessage queueID row) : p.ValidMessage queueID after := by
  have hsame := hstep.sameIdentity
  have hafter := messageChecks_iff.mp hchecks
  exact
    { toValidPolicyState := hstep.validPolicyState hp hrow.toValidPolicyState
      id := hsame.queueID.trans hrow.id
      validID := hafter.queueID
      sender := by rw [hsame.sender]; exact hrow.sender
      attempts := hafter.attempts.1
      holdState := hafter.holdState
      fingerprint := hafter.fingerprint
      recipientDigest := hafter.recipientDigest
      sourceDigest := hafter.sourceDigest
      firstSeen := by rw [hsame.firstSeen]; exact hrow.firstSeen
      updated := hafter.updated
      errorCode := hafter.errorCode }

end Specifications

end GotthMail
