/-
The tables that outbound policy reads and writes, with the constraints the
migrations declare, and the load of one queue record from its rows.  The text
order and the control class of the database locale are parameters.
-/
import GotthMail.Queue

namespace GotthMail

open Bytes Framing Sha256 Relational

/-- The default locale of the database: the order of text, its lower case and
the code points of the control class. -/
structure Locale where
  collation : Collation Text
  lower : Text → Text
  control : Nat → Bool

def isUuid (text : Text) : Bool :=
  text.length == 36 && text.all fun byte => isLowerHex byte || byte == 45

/-- The text form of an object identifier. -/
structure Uuid where
  text : Text
  canonical : isUuid text = true
deriving DecidableEq

def firstUuid : Uuid := ⟨ascii "00000000-0000-4000-8000-000000000001", by decide⟩

structure DomainRow where
  id : Uuid
  name : Text
  enabled : Bool
  scope : Scope
  revision : Int
  updatedAt : Time
deriving DecidableEq

structure MailboxRow where
  id : Uuid
  domainID : Uuid
  localPart : Text
  enabled : Bool
  verifier : Option Text
  quotaBytes : Option Int
deriving DecidableEq

/-- A text value stays below the gigabyte that the database can store. -/
structure AliasRow where
  id : Uuid
  domainID : Uuid
  localPart : Text
  targetsJSON : Text
  enabled : Bool
  localPart_small : localPart.length < 2 ^ 30
  targetsJSON_small : targetsJSON.length < 2 ^ 30
deriving DecidableEq

structure SystemSenderRow where
  id : Text
  domainID : Uuid
  address : Text
  enabled : Bool
  revision : Int
deriving DecidableEq

/-- `policyRevisions` is what the stored document decodes to, if it does. -/
structure MessageRow where
  queueID : Text
  arrivalFingerprint : Text
  envelopeSender : Text
  recipientSetDigest : Text
  sourceSetDigest : Text
  holdState : HoldState
  policyReason : Option Reason
  policyRevisions : Option RevisionMap
  reconciliationAttempts : Int
  lastErrorCode : Option Text
  firstSeenAt : Time
  updatedAt : Time
deriving DecidableEq

structure RecipientRow where
  queueID : Text
  recipient : Text
  domain : Text
deriving DecidableEq

structure SourceRow where
  queueID : Text
  source : QueueSource
deriving DecidableEq

structure ActorRef where
  type : Text
  id : Text
deriving DecidableEq

structure AuditEvent where
  time : Time
  actor : ActorRef
  action : String
  resourceType : String
  resourceID : Text
  correlationID : Text
  result : String
deriving DecidableEq

def RecipientRow.key (row : RecipientRow) : Text × Text := (row.queueID, row.recipient)

structure Database where
  domains : Table DomainRow DomainRow.id
  mailboxes : Table MailboxRow MailboxRow.id
  aliases : Table AliasRow AliasRow.id
  systemSenders : Table SystemSenderRow SystemSenderRow.id
  messages : Table MessageRow MessageRow.queueID
  recipients : Table RecipientRow RecipientRow.key
  sources : Table SourceRow id
  audit : List AuditEvent

/-- What a text column can hold. -/
def storable (text : Text) : Bool := validUTF8 text && !text.elem 0

/-- A text length in characters. -/
def characters (text : Text) : Nat := (decode text).length

namespace Locale

variable (locale : Locale)

def hasControl (text : Text) : Bool := (decode text).any fun rune => locale.control rune.value

/-- The constraints on `outbound_queue_messages`. -/
def messageChecks (row : MessageRow) : Bool :=
  validLongQueueID row.queueID && validLowerHexDigest row.arrivalFingerprint &&
    storable row.envelopeSender && decide (2 ≤ characters row.envelopeSender ∧
      characters row.envelopeSender ≤ 254) &&
    !locale.hasControl row.envelopeSender && validLowerHexDigest row.recipientSetDigest &&
    validLowerHexDigest row.sourceSetDigest && validHoldState row.holdState &&
    row.policyReason.all validQueueReason && decide (0 ≤ row.reconciliationAttempts ∧
      row.reconciliationAttempts < 2 ^ 63) &&
    row.lastErrorCode.all validQueueErrorCode && decide (row.firstSeenAt ≤ row.updatedAt)

/-- The constraints on `outbound_queue_recipients`. -/
def recipientChecks (row : RecipientRow) : Bool :=
  storable row.recipient &&
    decide (3 ≤ characters row.recipient ∧ characters row.recipient ≤ 254) &&
    !locale.hasControl row.recipient && decide (1 ≤ row.domain.length ∧ row.domain.length ≤ 253) &&
    row.domain.all isHostByte

/-- No blank at either end. -/
def btrimmed (text : Text) : Bool := text.head? != some 32 && text.getLast? != some 32

/-- The constraints on `outbound_queue_sources`. -/
def sourceChecks (row : SourceRow) : Bool :=
  validSourceKind row.source.kind && storable row.source.objectID &&
    decide (1 ≤ characters row.source.objectID ∧ characters row.source.objectID ≤ 320) &&
    !locale.hasControl row.source.objectID && btrimmed row.source.objectID

end Locale

/-- One row of a bounded query result: the limit first, then the row. -/
def scanRow {ρ β : Type} (limit : Nat) (limitMessage : String)
    (accepts : ρ → Bool) (message : String) (value : ρ → β)
    (found : List β) (row : ρ) : Except Error (List β) := do
  check (decide (found.length < limit)) limitMessage
  check (accepts row) message
  return found ++ [value row]

namespace Platform

variable (p : Platform)

/-- The parent row of a record, before its child rows are read. -/
def loadMessage (queueID : Text) (row : MessageRow) :
    Except Error QueueRecord := do
  check (row.queueID == queueID && validLongQueueID row.queueID &&
      decide (p.normalizeQueueSender row.envelopeSender = .ok row.envelopeSender) &&
      decide (0 ≤ row.reconciliationAttempts) && validHoldState row.holdState &&
      validLowerHexDigest row.arrivalFingerprint && validLowerHexDigest row.recipientSetDigest &&
      validLowerHexDigest row.sourceSetDigest && row.firstSeenAt != 0 &&
      decide (row.firstSeenAt ≤ row.updatedAt))
    "stored outbound queue state is invalid"
  check (row.policyReason.all validQueueReason) "stored outbound queue reason is invalid"
  let revisions ← require row.policyRevisions "stored outbound queue policy revisions are invalid"
  check (revisions.keys.card == 0 ||
      match p.canonicalPolicyRevisions revisions with
      | .ok canonical => revisionMapsEqual revisions canonical
      | .error _ => false)
    "stored outbound queue policy revisions are invalid"
  check (validQueuePolicyState row.holdState row.policyReason revisions)
    "stored outbound queue policy state is invalid"
  check (row.lastErrorCode.all validQueueErrorCode) "stored outbound queue error code is invalid"
  return {
    queueID := row.queueID
    arrivalFingerprint := row.arrivalFingerprint
    envelopeSender := row.envelopeSender
    recipientSetDigest := row.recipientSetDigest
    sourceSetDigest := row.sourceSetDigest
    holdState := row.holdState
    policyReason := row.policyReason
    policyRevisions := revisions
    reconciliationAttempts := row.reconciliationAttempts.toNat
    lastErrorCode := row.lastErrorCode
    firstSeenAt := row.firstSeenAt
    updatedAt := row.updatedAt
    recipients := []
    sources := [] }

def scanRecipient : List Text → RecipientRow → Except Error (List Text) :=
  scanRow maxQueueRecipients "stored outbound queue recipient limit exceeded"
    (fun row => decide (p.normalizeQueueRecipient row.recipient = .ok (row.recipient, row.domain)))
    "stored outbound queue recipient is invalid" RecipientRow.recipient

end Platform

def scanSource : List QueueSource → SourceRow → Except Error (List QueueSource) :=
  scanRow maxQueueSources "stored outbound queue source limit exceeded"
    (fun row => row.source.valid) "stored outbound queue source is invalid" SourceRow.source

/-- The record that three query results stand for, once every canonical form
and both digests have been checked. -/
def Platform.loadQueueRecord (p : Platform) (queueID : Text)
    (message : Option MessageRow) (recipientRows : List RecipientRow)
    (sourceRows : List SourceRow) : Except Error QueueRecord := do
  let row ← require message "outbound queue record not found"
  let record ← p.loadMessage queueID row
  let recipients ← recipientRows.foldlM p.scanRecipient []
  let sources ← sourceRows.foldlM scanSource []
  check (decide (0 < recipients.length ∧ 0 < sources.length) &&
      digestStrings recipients == record.recipientSetDigest &&
      digestSources sources == record.sourceSetDigest)
    "stored outbound queue provenance digest mismatch"
  return { record with recipients, sources }

namespace Database

variable (locale : Locale) (p : Platform) (db : Database)

/-- The recipient rows of a queue ID in the order of the database. -/
def queueRecipients (queueID : Text) : List RecipientRow :=
  locale.collation.sortBy RecipientRow.recipient
    (db.recipients.rows.filter fun row => row.queueID = queueID)

/-- The source rows of a queue ID in the order of the database. -/
def queueSources (queueID : Text) : List SourceRow :=
  (locale.collation.lex locale.collation).sortBy (fun row => row.source.sortKey)
    (db.sources.rows.filter fun row => row.queueID = queueID)

/-- The record as one transaction sees it. -/
def loadQueueRecord (queueID : Text) : Except Error QueueRecord :=
  p.loadQueueRecord queueID (db.messages.find? queueID)
    (db.queueRecipients locale queueID) (db.queueSources locale queueID)

def load (queueID : Text) : Except Error QueueRecord := do
  check (validLongQueueID queueID) "invalid Postfix long queue ID"
  db.loadQueueRecord locale p queueID

end Database

theorem load_ok_iff {locale : Locale} {p : Platform} {db : Database}
    {queueID : Text} {record : QueueRecord} :
    db.load locale p queueID = .ok record ↔ validLongQueueID queueID = true ∧
        db.loadQueueRecord locale p queueID = .ok record := by
  simp only [Database.load, bind_ok_iff, check_ok_iff]
  constructor
  · rintro ⟨_, hid, hload⟩
    exact ⟨hid, hload⟩
  · rintro ⟨hid, hload⟩
    exact ⟨(), hid, hload⟩

/-- The migrated database before anything is stored. -/
def Database.empty : Database where
  domains := Table.empty
  mailboxes := Table.empty
  aliases := Table.empty
  systemSenders := Table.empty
  messages := Table.empty
  recipients := Table.empty
  sources := Table.empty
  audit := []

def byteLocale : Locale where
  collation := byteOrder
  lower := toLower
  control value := decide (value < 0x20 ∨ value = 0x7F)

/-- Text that a column with a character limit accepts. -/
structure Locale.Printable (locale : Locale) (text : Text) (low high : Nat) :
    Prop where
  storable : storable text = true
  length : low ≤ characters text ∧ characters text ≤ high
  control : locale.hasControl text = false

/-- A parent row that satisfies its constraints. -/
structure Locale.CheckedMessage (locale : Locale) (row : MessageRow) :
    Prop where
  queueID : validLongQueueID row.queueID = true
  fingerprint : validLowerHexDigest row.arrivalFingerprint = true
  sender : locale.Printable row.envelopeSender 2 254
  recipientDigest : validLowerHexDigest row.recipientSetDigest = true
  sourceDigest : validLowerHexDigest row.sourceSetDigest = true
  holdState : validHoldState row.holdState = true
  reason : row.policyReason.all validQueueReason = true
  attempts : 0 ≤ row.reconciliationAttempts ∧ row.reconciliationAttempts < 2 ^ 63
  errorCode : row.lastErrorCode.all validQueueErrorCode = true
  updated : row.firstSeenAt ≤ row.updatedAt

theorem messageChecks_iff {locale : Locale} {row : MessageRow} :
    locale.messageChecks row = true ↔ locale.CheckedMessage row := by
  simp only [Locale.messageChecks, Bool.and_eq_true, decide_eq_true_eq, Bool.not_eq_true']
  constructor
  · rintro ⟨⟨⟨⟨⟨⟨⟨⟨⟨⟨⟨hid, hprint⟩, hstorable⟩, hlength⟩, hcontrol⟩, hrecipients⟩,
      hsources⟩, hstate⟩, hreason⟩, hattempts⟩, hcode⟩, hupdated⟩
    exact ⟨hid, hprint, ⟨hstorable, hlength, hcontrol⟩, hrecipients, hsources,
      hstate, hreason, hattempts, hcode, hupdated⟩
  · rintro ⟨hid, hprint, ⟨hstorable, hlength, hcontrol⟩, hrecipients, hsources,
      hstate, hreason, hattempts, hcode, hupdated⟩
    exact ⟨⟨⟨⟨⟨⟨⟨⟨⟨⟨⟨hid, hprint⟩, hstorable⟩, hlength⟩, hcontrol⟩, hrecipients⟩,
      hsources⟩, hstate⟩, hreason⟩, hattempts⟩, hcode⟩, hupdated⟩

/-- The record of a row and its children, checked or not. -/
def MessageRow.toRecord (row : MessageRow) (recipients : List Text)
    (sources : List QueueSource) : QueueRecord where
  queueID := row.queueID
  arrivalFingerprint := row.arrivalFingerprint
  envelopeSender := row.envelopeSender
  recipientSetDigest := row.recipientSetDigest
  sourceSetDigest := row.sourceSetDigest
  holdState := row.holdState
  policyReason := row.policyReason
  policyRevisions := row.policyRevisions.getD ∅
  reconciliationAttempts := row.reconciliationAttempts.toNat
  lastErrorCode := row.lastErrorCode
  firstSeenAt := row.firstSeenAt
  updatedAt := row.updatedAt
  recipients := recipients
  sources := sources

/-- The revisions of a hold are those of their canonical form. -/
def Platform.CanonicalRevisions (p : Platform) (revisions : RevisionMap) : Prop :=
  ∃ canonical, p.canonicalPolicyRevisions revisions = .ok canonical ∧
    revisionMapsEqual revisions canonical = true

/-- The part of a row that the hold protocol changes. -/
structure Platform.ValidPolicyState (p : Platform) (row : MessageRow) :
    Prop where
  reason : row.policyReason.all validQueueReason = true
  decoded : row.policyRevisions = some (row.policyRevisions.getD ∅)
  canonical : (row.policyRevisions.getD ∅).keys.card = 0 ∨
    p.CanonicalRevisions (row.policyRevisions.getD ∅)
  state : validQueuePolicyState row.holdState row.policyReason (row.policyRevisions.getD ∅) = true

/-- A parent row that the load accepts. -/
structure Platform.ValidMessage (p : Platform) (queueID : Text)
    (row : MessageRow) : Prop extends p.ValidPolicyState row where
  id : row.queueID = queueID
  validID : validLongQueueID row.queueID = true
  sender : p.normalizeQueueSender row.envelopeSender = .ok row.envelopeSender
  attempts : 0 ≤ row.reconciliationAttempts
  holdState : validHoldState row.holdState = true
  fingerprint : validLowerHexDigest row.arrivalFingerprint = true
  recipientDigest : validLowerHexDigest row.recipientSetDigest = true
  sourceDigest : validLowerHexDigest row.sourceSetDigest = true
  firstSeen : row.firstSeenAt ≠ 0
  updated : row.firstSeenAt ≤ row.updatedAt
  errorCode : row.lastErrorCode.all validQueueErrorCode = true

variable {p : Platform} {queueID : Text} {row : MessageRow}

theorem canonicalCheck_iff {revisions : RevisionMap} :
    (match p.canonicalPolicyRevisions revisions with
      | .ok canonical => revisionMapsEqual revisions canonical
      | .error _ => false) = true ↔ p.CanonicalRevisions revisions := by
  cases hcanonical : p.canonicalPolicyRevisions revisions with
  | error reason => simp [Platform.CanonicalRevisions, hcanonical]
  | ok canonical => simp [Platform.CanonicalRevisions, hcanonical]

theorem loadMessage_ok_iff {record : QueueRecord} :
    p.loadMessage queueID row = .ok record ↔
      p.ValidMessage queueID row ∧ record = row.toRecord [] [] := by
  simp only [Platform.loadMessage, bind_ok_iff, check_ok_iff, pure_ok_iff,
    require_ok_iff, canonicalCheck_iff, Bool.and_eq_true, Bool.or_eq_true, beq_iff_eq,
    bne_iff_ne, decide_eq_true_eq]
  constructor
  · rintro ⟨_, ⟨⟨⟨⟨⟨⟨⟨⟨⟨hid, hvalid⟩, hsender⟩, hattempts⟩, hstate⟩, hprint⟩,
      hrecipients⟩, hsources⟩, hfirst⟩, hupdated⟩, _, hreason, revisions,
      hrevisions, _, hcanonical, _, hpolicy, _, hcode, rfl⟩
    refine ⟨?_, ?_⟩
    · exact
        { reason := hreason
          decoded := by rw [hrevisions]; rfl
          canonical := by rw [hrevisions]; exact hcanonical
          state := by rw [hrevisions]; exact hpolicy
          id := hid
          validID := hvalid
          sender := hsender
          attempts := hattempts
          holdState := hstate
          fingerprint := hprint
          recipientDigest := hrecipients
          sourceDigest := hsources
          firstSeen := hfirst
          updated := hupdated
          errorCode := hcode }
    · simp only [MessageRow.toRecord, hrevisions, Option.getD_some]
  · rintro ⟨hrow, rfl⟩
    exact ⟨(), ⟨⟨⟨⟨⟨⟨⟨⟨⟨hrow.id, hrow.validID⟩, hrow.sender⟩, hrow.attempts⟩,
      hrow.holdState⟩, hrow.fingerprint⟩, hrow.recipientDigest⟩,
      hrow.sourceDigest⟩, hrow.firstSeen⟩, hrow.updated⟩, (), hrow.reason, _,
      hrow.decoded, (), hrow.canonical, (), hrow.state, (), hrow.errorCode, rfl⟩

theorem foldlM_scanRow_ok_iff {ρ β : Type} {limit : Nat}
    {limitMessage message : String} {accepts : ρ → Bool} {value : ρ → β}
    {rows : List ρ} {found values : List β} :
    rows.foldlM (scanRow limit limitMessage accepts message value) found = .ok values ↔
      (rows ≠ [] → found.length + rows.length ≤ limit) ∧ (∀ row ∈ rows, accepts row = true) ∧
        values = found ++ rows.map value := by
  induction rows generalizing found with
  | nil =>
    rw [List.foldlM_nil, pure_ok_iff, eq_comm]
    simp
  | cons row rest ih =>
    simp only [List.foldlM_cons, bind_ok_iff, ih, scanRow, check_ok_iff,
      pure_ok_iff, decide_eq_true_eq]
    constructor
    · rintro ⟨_, ⟨_, hlimit, _, hrow, rfl⟩, hcount, hrest, rfl⟩
      refine ⟨fun _ => ?_, ?_, by simp⟩
      · by_cases hnil : rest = []
        · rw [hnil, List.length_singleton]
          omega
        · have htotal := hcount hnil
          simp only [List.length_append, List.length_cons, List.length_nil] at htotal ⊢
          omega
      · intro other hother
        rcases List.mem_cons.mp hother with rfl | hother
        · exact hrow
        · exact hrest other hother
    · rintro ⟨hcount, hall, rfl⟩
      have htotal := hcount (List.cons_ne_nil row rest)
      rw [List.length_cons] at htotal
      refine ⟨_, ⟨(), by omega, (), hall row List.mem_cons_self, rfl⟩,
        fun _ => ?_, fun other hother => hall other (List.mem_cons_of_mem _ hother), by simp⟩
      simp only [List.length_append, List.length_cons, List.length_nil]
      omega

/-- Child rows that the load accepts. -/
structure Platform.ValidChildren (p : Platform)
    (recipientRows : List RecipientRow) (sourceRows : List SourceRow) :
    Prop where
  recipientCount : 0 < recipientRows.length ∧ recipientRows.length ≤ maxQueueRecipients
  sourceCount : 0 < sourceRows.length ∧ sourceRows.length ≤ maxQueueSources
  recipients : ∀ row ∈ recipientRows,
    p.normalizeQueueRecipient row.recipient = .ok (row.recipient, row.domain)
  sources : ∀ row ∈ sourceRows, row.source.valid = true

/-- A load succeeds exactly on valid rows whose digests are those stored. -/
theorem loadQueueRecord_ok_iff {message : Option MessageRow}
    {recipientRows : List RecipientRow} {sourceRows : List SourceRow} {record : QueueRecord} :
    p.loadQueueRecord queueID message recipientRows sourceRows = .ok record ↔
      ∃ row, message = some row ∧ p.ValidMessage queueID row ∧
        p.ValidChildren recipientRows sourceRows ∧
        digestStrings (recipientRows.map RecipientRow.recipient) = row.recipientSetDigest ∧
        digestSources (sourceRows.map SourceRow.source) = row.sourceSetDigest ∧
        record = row.toRecord (recipientRows.map RecipientRow.recipient)
          (sourceRows.map SourceRow.source) := by
  simp only [Platform.loadQueueRecord, bind_ok_iff, require_ok_iff,
    loadMessage_ok_iff, Platform.scanRecipient, scanSource,
    foldlM_scanRow_ok_iff, check_ok_iff, pure_ok_iff, Bool.and_eq_true,
    beq_iff_eq, decide_eq_true_eq, List.nil_append, List.length_nil, Nat.zero_add]
  constructor
  · rintro ⟨row, hmessage, _, ⟨hrow, rfl⟩, _, ⟨hcount, hrecipients, rfl⟩, _,
      ⟨hsourceCount, hsources, rfl⟩, _, ⟨⟨hsome, hdigest⟩, hsourceDigest⟩, rfl⟩
    simp only [List.length_map] at hsome
    refine ⟨row, hmessage, hrow, ⟨⟨hsome.1, hcount ?_⟩,
      ⟨hsome.2, hsourceCount ?_⟩, hrecipients, hsources⟩, hdigest, hsourceDigest, rfl⟩
    · exact List.length_pos_iff.mp hsome.1
    · exact List.length_pos_iff.mp hsome.2
  · rintro ⟨row, hmessage, hrow, hchildren, hdigest, hsourceDigest, rfl⟩
    refine ⟨row, hmessage, _, ⟨hrow, rfl⟩, _,
      ⟨fun _ => hchildren.recipientCount.2, hchildren.recipients, rfl⟩, _,
      ⟨fun _ => hchildren.sourceCount.2, hchildren.sources, rfl⟩, (),
      ⟨⟨?_, hdigest⟩, hsourceDigest⟩, rfl⟩
    simp only [List.length_map]
    exact ⟨hchildren.recipientCount.1, hchildren.sourceCount.1⟩

end GotthMail
