/-
Registration of a queue file.  The parent row is inserted unless the queue ID
exists, its children are copied, and the record is read back and compared
before the transaction commits.
-/
import GotthMail.Database

namespace GotthMail

open Bytes Framing Sha256 Relational

/-- A violated constraint is an error of the driver. -/
def checkSql (condition : Bool) : Except Error Unit := if condition then .ok () else .error .sql

def requireSql {α : Type} (value : Option α) : Except Error α :=
  match value with
  | some found => .ok found
  | none => .error .sql

@[simp] theorem checkSql_ok_iff {condition : Bool} {u : Unit} :
    checkSql condition = .ok u ↔ condition = true := by
  cases condition <;> simp [checkSql]

variable {α : Type} {created : Bool} {second : QueueRecord}

@[simp] theorem requireSql_ok_iff {value : Option α} {found : α} :
    requireSql value = .ok found ↔ value = some found := by
  cases value <;> simp [requireSql]

/-- Run a transaction; an error rolls back. -/
def Database.transact {α : Type} (db : Database) (body : Database → Except Error (α × Database)) :
    Except Error α × Database :=
  match body db with
  | .ok (value, next) => (.ok value, next)
  | .error reason => (.error reason, db)

/-- The row that a registration inserts, with the defaults of the columns. -/
def QueueRecord.newMessage (record : QueueRecord) (now : Time) : MessageRow where
  queueID := record.queueID
  arrivalFingerprint := record.arrivalFingerprint
  envelopeSender := record.envelopeSender
  recipientSetDigest := record.recipientSetDigest
  sourceSetDigest := record.sourceSetDigest
  holdState := .pending
  policyReason := none
  policyRevisions := some ∅
  reconciliationAttempts := 0
  lastErrorCode := none
  firstSeenAt := now
  updatedAt := now

def Platform.recipientRow (p : Platform) (queueID recipient : Text) :
    Except Error RecipientRow := do
  let (_, domain) ← p.normalizeQueueRecipient recipient
  return ⟨queueID, recipient, domain⟩

namespace Database

variable (locale : Locale) (p : Platform)

def copyQueueRecipients (record : QueueRecord) (db : Database) :
    Except Error Database := do
  let rows ← record.recipients.mapM (p.recipientRow record.queueID)
  checkSql (rows.all locale.recipientChecks)
  let recipients ← requireSql (db.recipients.insertAll rows)
  return { db with recipients }

def copyQueueSources (record : QueueRecord) (db : Database) :
    Except Error Database := do
  let rows := record.sources.map (SourceRow.mk record.queueID)
  checkSql (rows.all locale.sourceChecks)
  let sources ← requireSql (db.sources.insertAll rows)
  return { db with sources }

/-- Insert the parent and its children, unless the queue ID is taken. -/
def insertQueue (record : QueueRecord) (now : Time) (db : Database) :
    Except Error (Bool × Database) := do
  checkSql (locale.messageChecks (record.newMessage now))
  match db.messages.insert (record.newMessage now) with
  | none => return (false, db)
  | some messages =>
    let db ← copyQueueRecipients locale p record { db with messages }
    let db ← copyQueueSources locale record db
    return (true, db)

def registerTx (now : Time) (input : QueueRegistration) (db : Database) :
    Except Error ((QueueRecord × Bool) × Database) := do
  let record ← p.normalizeQueueRegistration input
  let (created, next) ← insertQueue locale p record now db
  let stored ← next.loadQueueRecord locale p record.queueID
  check (sameQueueIdentity stored record)
    "Postfix queue ID is already bound to different arrival metadata"
  return ((stored, created), next)

def register (now : Time) (input : QueueRegistration) (db : Database) :
    Except Error (QueueRecord × Bool) × Database :=
  db.transact (registerTx locale p now input)

end Database

theorem transact_eq_ok_iff {db next : Database} {value : α}
    {body : Database → Except Error (α × Database)} :
    db.transact body = (.ok value, next) ↔ body db = .ok (value, next) := by
  unfold Database.transact
  cases hbody : body db with
  | error reason => simp
  | ok result => simp [Prod.ext_iff]

/-- A transaction that fails leaves the database as it was. -/
theorem transact_error {db : Database} {reason : Error}
    {body : Database → Except Error (α × Database)} (hbody : (db.transact body).1 = .error reason) :
    db.transact body = (.error reason, db) := by
  unfold Database.transact at hbody ⊢
  cases hresult : body db with
  | error found =>
    rw [hresult] at hbody
    cases hbody
    rfl
  | ok result =>
    rw [hresult] at hbody
    cases hbody

variable {locale : Locale} {p : Platform} {db next : Database}
  {input : QueueRegistration} {record stored : QueueRecord} {now : Time}

theorem registerTx_ok_iff :
    Database.registerTx locale p now input db = .ok ((stored, created), next) ↔
      ∃ record, p.normalizeQueueRegistration input = .ok record ∧
        Database.insertQueue locale p record now db = .ok (created, next) ∧
        next.loadQueueRecord locale p record.queueID = .ok stored ∧
        sameQueueIdentity stored record = true := by
  simp only [Database.registerTx, bind_ok_iff, check_ok_iff, pure_ok_iff,
    Prod.exists, Prod.mk.injEq]
  constructor
  · rintro ⟨record, hrecord, _, _, hinsert, _, hload, _, hsame, ⟨rfl, rfl⟩, rfl⟩
    exact ⟨record, hrecord, hinsert, hload, hsame⟩
  · rintro ⟨record, hrecord, hinsert, hload, hsame⟩
    exact ⟨record, hrecord, _, _, hinsert, _, hload, (), hsame, ⟨rfl, rfl⟩, rfl⟩

/-- A taken queue ID inserts nothing. -/
theorem insertQueue_of_taken {row : MessageRow} (hrow : db.messages.find? record.queueID = some row)
    (hchecks : locale.messageChecks (record.newMessage now) = true) :
    Database.insertQueue locale p record now db = .ok (false, db) := by
  have hinsert : db.messages.insert (record.newMessage now) = none := by
    rw [Option.eq_none_iff_forall_ne_some]
    intro messages hmessages
    have habsent := (Table.insert_eq_some_iff.mp hmessages).1
    rw [show MessageRow.queueID (record.newMessage now) = record.queueID from rfl, hrow] at habsent
    cases habsent
  simp only [Database.insertQueue, hchecks, hinsert]
  rfl

theorem messageChecks_of_insertQueue (hinsert : Database.insertQueue locale p record now db =
      .ok (created, next)) :
    locale.messageChecks (record.newMessage now) = true := by
  simp only [Database.insertQueue, bind_ok_iff, checkSql_ok_iff] at hinsert
  exact hinsert.choose_spec.1

theorem sameQueueIdentity_fields {left right : QueueRecord} :
    sameQueueIdentity left right = true ↔ left.queueID = right.queueID ∧
        left.arrivalFingerprint = right.arrivalFingerprint ∧
        left.envelopeSender = right.envelopeSender ∧
        left.recipientSetDigest = right.recipientSetDigest ∧
        left.sourceSetDigest = right.sourceSetDigest := by
  simp only [sameQueueIdentity, Bool.and_eq_true, beq_iff_eq, and_assoc]

theorem sameQueueIdentity_trans {first third : QueueRecord}
    (hfirst : sameQueueIdentity first second = true)
    (hsecond : sameQueueIdentity second third = true) : sameQueueIdentity first third = true := by
  rw [sameQueueIdentity_fields] at hfirst hsecond ⊢
  obtain ⟨hid, hprint, hsender, hrecipients, hsources⟩ := hfirst
  rw [hid, hprint, hsender, hrecipients, hsources]
  exact hsecond

theorem sameQueueIdentity_symm {first : QueueRecord}
    (hsame : sameQueueIdentity first second = true) : sameQueueIdentity second first = true := by
  rw [sameQueueIdentity_fields] at hsame ⊢
  obtain ⟨hid, hprint, hsender, hrecipients, hsources⟩ := hsame
  exact ⟨hid.symm, hprint.symm, hsender.symm, hrecipients.symm, hsources.symm⟩

/-- The constraints on a new row see its identity only. -/
theorem messageChecks_newMessage (later : Time) (hsame : sameQueueIdentity record second = true)
    (hchecks : locale.messageChecks (record.newMessage now) = true) :
    locale.messageChecks (second.newMessage later) = true := by
  rw [sameQueueIdentity_fields] at hsame
  obtain ⟨hid, hprint, hsender, hrecipients, hsources⟩ := hsame
  have hrow : second.newMessage later =
      { record.newMessage now with firstSeenAt := later, updatedAt := later } := by
    simp only [QueueRecord.newMessage, hid, hprint, hsender, hrecipients, hsources]
  rw [messageChecks_iff] at hchecks ⊢
  rw [hrow]
  exact
    { queueID := hchecks.queueID
      fingerprint := hchecks.fingerprint
      sender := hchecks.sender
      recipientDigest := hchecks.recipientDigest
      sourceDigest := hchecks.sourceDigest
      holdState := hchecks.holdState
      reason := hchecks.reason
      attempts := hchecks.attempts
      errorCode := hchecks.errorCode
      updated := le_refl later }

theorem find?_of_loadQueueRecord {queueID : Text}
    (hload : db.loadQueueRecord locale p queueID = .ok stored) :
    ∃ row, db.messages.find? queueID = some row ∧ stored.queueID = queueID := by
  obtain ⟨row, hrow, hvalid, _, _, _, rfl⟩ := loadQueueRecord_ok_iff.mp hload
  exact ⟨row, hrow, hvalid.id⟩

/-- On a taken queue ID the stored record is compared and nothing changes. -/
theorem register_of_taken {row : MessageRow} (hrow : db.messages.find? input.queueID = some row) :
    (∃ reason, Database.register locale p now input db = (.error reason, db)) ∨
      ∃ record stored, p.normalizeQueueRegistration input = .ok record ∧
        db.loadQueueRecord locale p input.queueID = .ok stored ∧
        sameQueueIdentity stored record = true ∧
        Database.register locale p now input db = (.ok (stored, false), db) := by
  cases hresult : (Database.register locale p now input db).1 with
  | error reason => exact .inl ⟨reason, transact_error hresult⟩
  | ok result =>
    right
    obtain ⟨stored, created⟩ := result
    have hregister : Database.register locale p now input db =
        (.ok (stored, created), (Database.register locale p now input db).2) :=
      Prod.ext hresult rfl
    obtain ⟨record, hrecord, hinsert, hload, hsame⟩ :=
      registerTx_ok_iff.mp (transact_eq_ok_iff.mp hregister)
    have hid := (normalizeQueueRegistration_ok hrecord).queueID
    rw [← hid] at hrow
    rw [insertQueue_of_taken hrow (messageChecks_of_insertQueue hinsert)] at hinsert
    obtain ⟨rfl, hnext⟩ := Prod.mk.inj (Except.ok.inj hinsert)
    rw [← hnext, hid] at hload
    rw [← hnext] at hregister
    exact ⟨record, stored, hrecord, hload, hsame, hregister⟩

/-- A registration of a stored identity finds the stored record. -/
theorem register_again {other : QueueRegistration} {later : Database}
    {found : QueueRecord} {again : Time}
    (hload : later.loadQueueRecord locale p other.queueID = .ok found)
    (hsecond : p.normalizeQueueRegistration other = .ok second)
    (hchecks : locale.messageChecks (second.newMessage again) = true)
    (hsame : sameQueueIdentity found second = true) :
    Database.register locale p again other later = (.ok (found, false), later) := by
  obtain ⟨row, hrow, _⟩ := find?_of_loadQueueRecord hload
  have hid := (normalizeQueueRegistration_ok hsecond).queueID
  rw [← hid] at hrow hload
  exact transact_eq_ok_iff.mpr (registerTx_ok_iff.mpr
    ⟨second, hsecond, insertQueue_of_taken hrow hchecks, hload, hsame⟩)

/-- A registration is identified by its queue ID, fingerprint, canonical sender
and its canonical recipients and sources as sets.  Registering it again finds
the stored record, and a different identity is refused; neither changes the
database. -/
theorem registration_identity (hp : p.Lookup) (locale : Locale) :
    (∀ input other record second, p.normalizeQueueRegistration input = .ok record →
      p.normalizeQueueRegistration other = .ok second →
      Set.InjOn sum256 (record.transcripts ∪ second.transcripts) →
      (sameQueueIdentity record second = true ↔ input.queueID = other.queueID ∧
          input.arrivalFingerprint = other.arrivalFingerprint ∧
          record.envelopeSender = second.envelopeSender ∧
          (∀ recipient, recipient ∈ record.recipients ↔ recipient ∈ second.recipients) ∧
          ∀ source, source ∈ input.sources ↔ source ∈ other.sources)) ∧
    ∀ db next now input stored created later found,
      Database.register locale p now input db = (.ok (stored, created), next) →
      later.loadQueueRecord locale p input.queueID = .ok found →
      sameQueueIdentity found stored = true → (∀ other again, other.queueID = input.queueID →
        other.arrivalFingerprint = input.arrivalFingerprint →
        other.envelopeSender = input.envelopeSender →
        (∀ raw, raw ∈ other.recipients ↔ raw ∈ input.recipients) →
        (∀ source, source ∈ other.sources ↔ source ∈ input.sources) →
        other.recipients.length ≤ maxQueueRecipients → other.sources.length ≤ maxQueueSources →
        Database.register locale p again other later = (.ok (found, false), later)) ∧
      ∀ other again record second, other.queueID = input.queueID →
        p.normalizeQueueRegistration input = .ok record →
        p.normalizeQueueRegistration other = .ok second →
        Set.InjOn sum256 (record.transcripts ∪ second.transcripts) →
        ¬ (input.arrivalFingerprint = other.arrivalFingerprint ∧
          record.envelopeSender = second.envelopeSender ∧
          (∀ recipient, recipient ∈ record.recipients ↔ recipient ∈ second.recipients) ∧
          ∀ source, source ∈ input.sources ↔ source ∈ other.sources) →
        ∃ reason, Database.register locale p again other later = (.error reason, later) := by
  have hidentity : ∀ input other record second, p.normalizeQueueRegistration input = .ok record →
      p.normalizeQueueRegistration other = .ok second →
      Set.InjOn sum256 (record.transcripts ∪ second.transcripts) → _ :=
    fun input other record second hrecord hsecond hsha =>
      sameQueueIdentity_iff hp (normalizeQueueRegistration_ok hrecord)
        (normalizeQueueRegistration_ok hsecond) hsha
  refine ⟨hidentity, ?_⟩
  intro db next now input stored created later found hregister hload hfound
  obtain ⟨record, hrecord, hinsert, _, hstored⟩ :=
    registerTx_ok_iff.mp (transact_eq_ok_iff.mp hregister)
  have hbound := sameQueueIdentity_trans hfound hstored
  refine ⟨?_, ?_⟩
  · intro other again hid hprint hsender hrecipients hsources hcount hsourceCount
    have hother := normalizeQueueRegistration_congr hrecord hid hprint hsender
      hrecipients hsources hcount hsourceCount
    refine register_again (hid ▸ hload) hother ?_ hbound
    exact messageChecks_newMessage again
      (sameQueueIdentity_trans (sameQueueIdentity_symm hbound) hbound)
      (messageChecks_of_insertQueue hinsert)
  · intro other again first second hid hfirst hsecond hsha hdifferent
    cases hrecord.symm.trans hfirst
    obtain ⟨row, hrow, _⟩ := find?_of_loadQueueRecord hload
    rw [← hid] at hrow hload
    rcases register_of_taken hrow with herror | ⟨_, _, hnormal, hagain, hsame, _⟩
    · exact herror
    · cases hsecond.symm.trans hnormal
      cases hload.symm.trans hagain
      have hsamePair := sameQueueIdentity_trans (sameQueueIdentity_symm hbound) hsame
      exact absurd ((hidentity input other record second hrecord hsecond
        hsha).mp hsamePair).2 hdifferent

theorem register_loads (hregister : Database.register locale p now input db =
      (.ok (stored, created), next)) :
    next.loadQueueRecord locale p input.queueID = .ok stored := by
  obtain ⟨record, hrecord, _, hload, _⟩ := registerTx_ok_iff.mp (transact_eq_ok_iff.mp hregister)
  rwa [(normalizeQueueRegistration_ok hrecord).queueID] at hload

/-- A message of a system sender. -/
def noticeRegistration (recipients : List Text) : QueueRegistration where
  queueID := ascii "3bQzXk5Wn4z1v"
  arrivalFingerprint := List.replicate 64 48
  envelopeSender := ascii "<>"
  recipients := recipients
  sources := [⟨.systemSender, ascii "postmaster"⟩]

theorem registration_identity_notice :
    ∃ stored created next, Database.register byteLocale asciiPlatform 1
        (noticeRegistration [ascii "a@example.test"]) Database.empty =
          (.ok (stored, created), next) ∧
      Database.register byteLocale asciiPlatform 2
        (noticeRegistration [ascii "a@example.test", ascii "a@example.test"])
        next = (.ok (stored, false), next) := by
  have hok : (Database.register byteLocale asciiPlatform 1
      (noticeRegistration [ascii "a@example.test"]) Database.empty).1.isOk = true := by
    decide +kernel
  cases hresult : Database.register byteLocale asciiPlatform 1
      (noticeRegistration [ascii "a@example.test"]) Database.empty with
  | mk outcome next =>
    cases outcome with
    | error reason =>
      rw [hresult] at hok
      cases hok
    | ok result =>
      obtain ⟨stored, created⟩ := result
      refine ⟨stored, created, next, rfl, ?_⟩
      exact ((registration_identity asciiPlatform_lookup byteLocale).2
        Database.empty next 1 _ stored created next stored hresult
        (register_loads hresult) (by simp [sameQueueIdentity])).1
          _ 2 rfl rfl rfl (by simp [noticeRegistration])
          (by simp [noticeRegistration]) (by decide) (by decide)

end GotthMail
