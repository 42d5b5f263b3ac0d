/-
What a confirmation digest binds.  The digest covers a JSON document, and two
length-framed transcripts of alias and queue rows stand behind one of its
fields; an accepted confirmation therefore names one state of the domain.
-/
import GotthMail.ChangePlan

namespace GotthMail

open Bytes Framing Sha256 Relational

/-- The loop over alias rows, after the rows in `seen`. -/
structure AliasScan.Covers (seen : List AliasRow) (found : AliasScan) :
    Prop where
  transcript : found.transcript = aliasContract :: seen.flatMap AliasRow.values
  aliases : found.aliases = seen.length
  bounded : found.aliases ≤ maxPolicyAliases

/-- A queued row that the loop lets pass. -/
structure QueuedRow.Sound (p : Platform) (domain : Text) (row : QueuedRow) :
    Prop where
  queueID : validLongQueueID row.queueID = true
  arrival : validLowerHexDigest row.arrival = true
  recipients : validLowerHexDigest row.recipients = true
  sources : validLowerHexDigest row.sources = true
  recipient : ∃ recipientDomain, p.normalizeQueueRecipient row.recipient =
    .ok (row.recipient, recipientDomain) ∧ recipientDomain ≠ domain

/-- The loop over queued recipients, after the rows in `seen`. -/
structure QueuedScan.Covers (p : Platform) (domain : Text)
    (seen : List QueuedRow) (found : QueuedScan) : Prop where
  transcript : found.transcript = queueContract :: seen.flatMap QueuedRow.values
  count : found.count = seen.length
  sound : ∀ row ∈ seen, row.Sound p domain
  queueIDs : ∀ queueID, queueID ∈ found.queueIDs ↔ ∃ row ∈ seen, row.queueID = queueID
  last : found.lastQueueID = (seen.getLast?.map QueuedRow.queueID).getD []

variable {locale : Locale} {p : Platform} {db next : Database}

variable {domain digest : Text} {row : QueuedRow} {byte : UInt8}

theorem scanAlias_covers {seen : List AliasRow} {found after : AliasScan}
    {row : AliasRow} (hfound : found.Covers seen)
    (hscan : p.scanAlias domain found row = .ok after) : after.Covers (seen ++ [row]) := by
  simp only [Platform.scanAlias, bind_ok_iff, check_ok_iff, require_ok_iff,
    pure_ok_iff, decide_eq_true_eq] at hscan
  rcases hscan with ⟨_, hlimit, _, _, targets, _, _, _, external, _, rfl⟩
  constructor
  · simp [hfound.transcript]
  · simp [hfound.aliases]
  · exact hlimit

theorem queuedRow_sound_iff :
    (validLongQueueID row.queueID && validLowerHexDigest row.arrival &&
      validLowerHexDigest row.recipients && validLowerHexDigest row.sources &&
      match p.normalizeQueueRecipient row.recipient with
      | .ok (canonical, recipientDomain) =>
        decide (canonical = row.recipient ∧ recipientDomain ≠ domain)
      | .error _ => false) = true ↔ row.Sound p domain := by
  simp only [Bool.and_eq_true]
  constructor
  · rintro ⟨⟨⟨⟨hid, harrival⟩, hrecipients⟩, hsources⟩, hrecipient⟩
    refine ⟨hid, harrival, hrecipients, hsources, ?_⟩
    split at hrecipient
    · next canonical recipientDomain hnormal =>
        rcases of_decide_eq_true hrecipient with ⟨rfl, hne⟩
        exact ⟨recipientDomain, hnormal, hne⟩
    · cases hrecipient
  · rintro ⟨hid, harrival, hrecipients, hsources, recipientDomain, hnormal, hne⟩
    rw [hnormal]
    exact ⟨⟨⟨⟨hid, harrival⟩, hrecipients⟩, hsources⟩, decide_eq_true ⟨rfl, hne⟩⟩

theorem scanQueued_ok_iff {found after : QueuedScan} :
    p.scanQueued domain found row = .ok after ↔
      found.count < maxPolicyQueuedRecipients ∧ row.Sound p domain ∧ after = {
          count := found.count + 1
          queueIDs :=
            if row.queueID = found.lastQueueID then found.queueIDs
            else found.queueIDs ++ [row.queueID]
          lastQueueID := row.queueID
          transcript := found.transcript ++ row.values } := by
  simp only [Platform.scanQueued, bind_ok_iff, check_ok_iff, pure_ok_iff, decide_eq_true_eq]
  constructor
  · rintro ⟨_, hcount, _, hrow, rfl⟩
    exact ⟨hcount, queuedRow_sound_iff.mp hrow, rfl⟩
  · rintro ⟨hcount, hrow, rfl⟩
    exact ⟨(), hcount, (), queuedRow_sound_iff.mpr hrow, rfl⟩

/-- The first identifier differs from the empty start, so a row either repeats
the identifier before it or is collected. -/
theorem scanQueued_covers {seen : List QueuedRow} {found after : QueuedScan}
    (hfound : found.Covers p domain seen) (hscan : p.scanQueued domain found row = .ok after) :
    after.Covers p domain (seen ++ [row]) := by
  rcases scanQueued_ok_iff.mp hscan with ⟨_, hrow, rfl⟩
  constructor
  · simp [hfound.transcript]
  · simp [hfound.count]
  · intro other hother
    rcases List.mem_append.mp hother with hseen | hnew
    · exact hfound.sound other hseen
    · rwa [List.mem_singleton.mp hnew]
  · intro queueID
    have hold := hfound.queueIDs queueID
    by_cases hrepeat : row.queueID = found.lastQueueID
    · have hcollected : ∃ other ∈ seen, other.queueID = row.queueID := by
        cases hlast : seen.getLast? with
        | none =>
          have hempty : row.queueID = [] := by
            rw [hrepeat, hfound.last, hlast]
            rfl
          have hvalid := hrow.queueID
          rw [hempty] at hvalid
          exact absurd hvalid (by decide)
        | some other =>
          refine ⟨other, List.mem_of_getLast? hlast, ?_⟩
          rw [hrepeat, hfound.last, hlast]
          rfl
      rw [if_pos hrepeat, hold]
      constructor
      · rintro ⟨other, hother, rfl⟩
        exact ⟨other, List.mem_append_left _ hother, rfl⟩
      · rintro ⟨other, hother, rfl⟩
        rcases List.mem_append.mp hother with hseen | hnew
        · exact ⟨other, hseen, rfl⟩
        · rwa [List.mem_singleton.mp hnew]
    · rw [if_neg hrepeat]
      simp [hold, or_and_right, exists_or, eq_comm]
  · simp

namespace Database

variable (locale : Locale) (db : Database)

/-- The rows behind the alias digest of a plan. -/
def aliasTranscript (domainID : Uuid) : List Text :=
  aliasContract :: (db.enabledAliases domainID).flatMap AliasRow.values

/-- The rows behind the queue digest of a plan. -/
def queueTranscript (domainID : Uuid) (domain : Text) : List Text :=
  queueContract :: (db.queuedRows locale domainID domain).flatMap QueuedRow.values

/-- The values behind the state digest of a plan. -/
def stateTranscript (domainID : Uuid) (domain : Text) : List Text :=
  [stateContract, digestStrings (db.aliasTranscript domainID),
    digestStrings (db.queueTranscript locale domainID domain)]

end Database

/-- What a plan says about the database it was computed from. -/
structure ChangePlan.Describes (locale : Locale) (p : Platform) (db : Database)
    (rawDomain : Text) (requested : Scope) (row : DomainRow)
    (plan : ChangePlan) : Prop where
  scope : validScope requested = true
  normal : p.normalizeDomain rawDomain = .ok row.name
  found : db.enabledDomain row.name = some row
  stored : validScope row.scope = true ∧ 0 < row.revision
  aliases : (db.enabledAliases row.id).length ≤ maxPolicyAliases
  resolved : db.unresolvedSources = []
  queued : ∀ queued ∈ db.queuedRows locale row.id row.name, queued.Sound p row.name
  domainID : plan.domainID = row.id
  domain : plan.domain = row.name
  currentScope : plan.currentScope = row.scope
  requestedScope : plan.requestedScope = requested
  revision : (plan.revision : Int) = row.revision
  stateDigest : plan.stateDigest = digestStrings (db.stateTranscript locale row.id row.name)
  affected : ∀ queueID, queueID ∈ plan.affectedQueueIDs ↔
    ∃ queued ∈ db.queuedRows locale row.id row.name, queued.queueID = queueID
  digest : plan.digest = sumHex plan.payload

theorem loadAliasImpact_ok {domainID : Uuid} {impact : Impact}
    (hload : db.loadAliasImpact p domainID domain = .ok (impact, digest)) :
    (db.enabledAliases domainID).length ≤ maxPolicyAliases ∧
      digest = digestStrings (db.aliasTranscript domainID) := by
  simp only [Database.loadAliasImpact, bind_ok_iff, pure_ok_iff, Prod.mk.injEq] at hload
  rcases hload with ⟨found, hfold, _, rfl⟩
  have hcovers : found.Covers (db.policyAliases domainID) := by
    simpa using foldlM_induct scanAlias_covers
      (⟨rfl, rfl, Nat.zero_le _⟩ : AliasScan.Covers [] _) hfold
  have hlength : (db.enabledAliases domainID).length ≤ maxPolicyAliases := by
    have hbound := hcovers.aliases ▸ hcovers.bounded
    rw [Database.policyAliases, List.length_take] at hbound
    omega
  have hall : db.policyAliases domainID = db.enabledAliases domainID :=
    List.take_of_length_le (Nat.le_succ_of_le hlength)
  rw [hall] at hcovers
  exact ⟨hlength, congrArg digestStrings hcovers.transcript⟩

theorem loadQueuedRecipientImpact_ok {domainID : Uuid} {count : Nat} {queueIDs : List Text}
    (hload : db.loadQueuedRecipientImpact locale p domainID domain =
      .ok (count, digest, queueIDs)) :
    db.unresolvedSources = [] ∧ digest = digestStrings (db.queueTranscript locale domainID domain) ∧
      ∃ found : QueuedScan, found.queueIDs = queueIDs ∧ found.Covers p domain
        (db.queuedRows locale domainID domain) := by
  simp only [Database.loadQueuedRecipientImpact, bind_ok_iff, pure_ok_iff,
    check_ok_iff, beq_iff_eq, List.length_eq_zero_iff, Prod.mk.injEq] at hload
  rcases hload with ⟨_, hresolved, found, hfold, _, rfl, rfl⟩
  have hcovers : found.Covers p domain (db.queuedRows locale domainID domain) := by
    simpa using foldlM_induct scanQueued_covers
      (⟨rfl, rfl, by simp, by simp, rfl⟩ : QueuedScan.Covers p domain [] _) hfold
  exact ⟨hresolved, congrArg digestStrings hcovers.transcript, found, rfl, hcovers⟩

/-- A plan describes the enabled domain row under the requested name. -/
theorem loadChangePlan_describes {rawDomain : Text} {requested : Scope} {plan : ChangePlan}
    (hload : db.loadChangePlan locale p rawDomain requested = .ok plan) :
    ∃ row, plan.Describes locale p db rawDomain requested row := by
  simp only [Database.loadChangePlan, planDigest, bind_ok_iff, pure_ok_iff,
    check_ok_iff, checkSql_ok_iff, require_ok_iff, decide_eq_true_eq,
    Bool.and_eq_true, bne_iff_ne, Prod.exists] at hload
  rcases hload with ⟨_, hscope, domain, hdomain, row, hrow, _, hnonneg, _,
    ⟨hstored, hrevision⟩, impact, aliasDigest, haliases, count, queueDigest,
    queueIDs, hqueued, digest, ⟨_, _, rfl⟩, rfl⟩
  have hname : row.name = domain := by
    have hhit := List.find?_some hrow
    simp only [Bool.and_eq_true, decide_eq_true_eq] at hhit
    exact hhit.1
  subst hname
  rcases loadAliasImpact_ok haliases with ⟨hlength, rfl⟩
  rcases loadQueuedRecipientImpact_ok hqueued with
    ⟨hresolved, rfl, found, rfl, hcovers⟩
  exact ⟨row, hscope, hdomain, hrow, ⟨hstored, by omega⟩, hlength, hresolved,
    hcovers.sound, rfl, rfl, rfl, rfl, Int.toNat_of_nonneg hnonneg, rfl, hcovers.queueIDs, rfl⟩

/-- The plan as a document with fixed labels. -/
def ChangePlan.fields (plan : ChangePlan) : List Json.Field :=
  [⟨ascii "\x7b\"contract\":" ++ 34 :: ascii "gotth-mail/outbound-policy-plan/v2" ++
        34 :: ascii ",\"domain_id\":" ++ [34], plan.domainID.text, 34⟩,
    ⟨ascii ",\"domain\":" ++ [34], plan.domain, 34⟩,
    ⟨ascii ",\"current_scope\":" ++ [34], plan.currentScope.text, 34⟩,
    ⟨ascii ",\"requested_scope\":" ++ [34], plan.requestedScope.text, 34⟩,
    ⟨ascii ",\"revision\":", decimal plan.revision, 44⟩,
    ⟨ascii "\"impact\":\x7b\"aliases\":", decimal plan.impact.aliases, 44⟩,
    ⟨ascii "\"external_targets\":", decimal plan.impact.externalTargets, 44⟩,
    ⟨ascii "\"queued_recipients\":", decimal plan.impact.queuedRecipients, 125⟩,
    ⟨ascii ",\"state_digest\":" ++ [34], plan.stateDigest, 34⟩]

/-- Plans whose texts the encoder copies. -/
structure ChangePlan.Plain (plan : ChangePlan) : Prop where
  domain : ∀ byte ∈ plan.domain, Json.isPlain byte = true
  currentScope : validScope plan.currentScope = true
  requestedScope : validScope plan.requestedScope = true
  stateDigest : ∀ byte ∈ plan.stateDigest, isLowerHex byte = true

theorem isPlain_of_isLowerHex (hbyte : isLowerHex byte = true) : Json.isPlain byte = true := by
  simp only [isLowerHex, Bool.or_eq_true, decide_eq_true_eq,
    UInt8.le_iff_toNat_le, UInt8.reduceToNat] at hbyte
  rw [Json.isPlain_iff]
  omega

theorem isPlain_of_isHostByte (hbyte : isHostByte byte = true) : Json.isPlain byte = true := by
  simp only [isHostByte, Bool.or_eq_true, decide_eq_true_eq, beq_iff_eq,
    dot, UInt8.le_iff_toNat_le, ← UInt8.toNat_inj, UInt8.reduceToNat] at hbyte
  rw [Json.isPlain_iff]
  omega

theorem Uuid.isPlain (id : Uuid) : ∀ byte ∈ id.text, Json.isPlain byte = true := by
  intro byte hbyte
  have hall := id.canonical
  simp only [isUuid, Bool.and_eq_true, List.all_eq_true, Bool.or_eq_true, beq_iff_eq] at hall
  rcases hall.2 byte hbyte with hhex | rfl
  · exact isPlain_of_isLowerHex hhex
  · decide

theorem Scope.isPlain {scope : Scope} (hscope : validScope scope = true) :
    ∀ byte ∈ scope.text, Json.isPlain byte = true := by
  cases scope with
  | unrestricted => exact List.all_eq_true.mp (by decide)
  | sameDomainOnly => exact List.all_eq_true.mp (by decide)
  | other raw => cases hscope

theorem Scope.text_injective {left right : Scope}
    (hleft : validScope left = true) (hright : validScope right = true)
    (heq : left.text = right.text) : left = right := by
  cases left with
  | unrestricted =>
    cases right with
    | unrestricted => rfl
    | sameDomainOnly => exact absurd heq (by decide)
    | other raw => cases hright
  | sameDomainOnly =>
    cases right with
    | unrestricted => exact absurd heq (by decide)
    | sameDomainOnly => rfl
    | other raw => cases hright
  | other raw => cases hleft

theorem not_mem_decimal {number : Nat} (hbyte : isDigit byte = false) :
    byte ∉ decimal number := fun hmem => by
  rw [isDigit_of_mem_decimal hmem] at hbyte
  cases hbyte

theorem quote_not_mem {text : Text}
    (htext : ∀ byte ∈ text, Json.isPlain byte = true) : (34 : UInt8) ∉ text :=
  fun hmem => Json.ne_quote_of_plain (htext 34 hmem) rfl

variable {plan other : ChangePlan}

/-- The commas and the brace that end a number begin the next label. -/
theorem numberLabels :
    ascii ",\"impact\":\x7b\"aliases\":" = 44 :: ascii "\"impact\":\x7b\"aliases\":" ∧
      ascii ",\"external_targets\":" = 44 :: ascii "\"external_targets\":" ∧
      ascii ",\"queued_recipients\":" = 44 :: ascii "\"queued_recipients\":" ∧
      ascii "\x7d,\"state_digest\":" = 125 :: ascii ",\"state_digest\":" := by
  decide +kernel

theorem quote_planContract :
    Json.quote (ascii "gotth-mail/outbound-policy-plan/v2") =
      34 :: ascii "gotth-mail/outbound-policy-plan/v2" ++ [34] := by
  decide +kernel

theorem ChangePlan.Plain.payload (hplan : plan.Plain) :
    plan.payload = plan.fields.flatMap Json.Field.text ++ ascii "\x7d" := by
  have hdigest : ∀ byte ∈ plan.stateDigest, Json.isPlain byte = true :=
    fun byte hbyte => isPlain_of_isLowerHex (hplan.stateDigest byte hbyte)
  have hid := Json.quote_of_plain plan.domainID.isPlain
  have hdomain := Json.quote_of_plain hplan.domain
  have hcurrent := Json.quote_of_plain (Scope.isPlain hplan.currentScope)
  have hrequested := Json.quote_of_plain (Scope.isPlain hplan.requestedScope)
  have hstate := Json.quote_of_plain hdigest
  unfold ChangePlan.payload ChangePlan.fields
  simp only [quote_planContract, hid, hdomain, hcurrent, hrequested, hstate,
    numberLabels.1, numberLabels.2.1, numberLabels.2.2.1, numberLabels.2.2.2]
  simp only [List.flatMap_cons, List.flatMap_nil, Json.Field.text,
    List.append_assoc, List.cons_append, List.nil_append]

theorem ChangePlan.Plain.delimited (hplan : plan.Plain) :
    ∀ field ∈ plan.fields, field.Delimited := by
  have hdigest : ∀ byte ∈ plan.stateDigest, Json.isPlain byte = true :=
    fun byte hbyte => isPlain_of_isLowerHex (hplan.stateDigest byte hbyte)
  simp only [ChangePlan.fields, List.forall_mem_cons, List.not_mem_nil,
    false_implies, implies_true, and_true, Json.Field.Delimited]
  exact ⟨quote_not_mem plan.domainID.isPlain, quote_not_mem hplan.domain,
    quote_not_mem (Scope.isPlain hplan.currentScope),
    quote_not_mem (Scope.isPlain hplan.requestedScope),
    not_mem_decimal (by decide), not_mem_decimal (by decide),
    not_mem_decimal (by decide), not_mem_decimal (by decide), quote_not_mem hdigest⟩

/-- A document determines every field of the plan it encodes. -/
theorem ChangePlan.Plain.payload_injective (hplan : plan.Plain)
    (hother : other.Plain) (heq : plan.payload = other.payload) :
    plan.domainID.text = other.domainID.text ∧ plan.domain = other.domain ∧
      plan.currentScope = other.currentScope ∧ plan.requestedScope = other.requestedScope ∧
      plan.revision = other.revision ∧ plan.stateDigest = other.stateDigest := by
  rw [hplan.payload, hother.payload] at heq
  have hfields := Json.fields_injective hplan.delimited hother.delimited rfl heq
  simp only [ChangePlan.fields, List.cons.injEq, Json.Field.mk.injEq, true_and, and_true] at hfields
  rcases hfields with ⟨hid, hdomain, hcurrent, hrequested, hrevision, _, _, _, hdigest⟩
  exact ⟨hid, hdomain, Scope.text_injective hplan.currentScope hother.currentScope hcurrent,
    Scope.text_injective hplan.requestedScope hother.requestedScope hrequested,
    decimal_injective hrevision, hdigest⟩

theorem Uuid.text_injective {left right : Uuid} (heq : left.text = right.text) : left = right := by
  rcases left with ⟨text, hcanonical⟩
  cases heq
  rfl

variable {rawDomain otherDomain : Text} {requested otherScope : Scope}
  {row otherRow : DomainRow} {later : Database}

theorem ChangePlan.Describes.plain (hp : p.Lookup)
    (hplan : plan.Describes locale p db rawDomain requested row) : plan.Plain where
  domain byte hbyte := by
    rw [hplan.domain] at hbyte
    exact isPlain_of_isHostByte (hp.host hplan.normal byte hbyte)
  currentScope := by
    rw [hplan.currentScope]
    exact hplan.stored.1
  requestedScope := by
    rw [hplan.requestedScope]
    exact hplan.scope
  stateDigest byte hbyte := by
    rw [hplan.stateDigest] at hbyte
    exact isLowerHex_of_mem_sumHex hbyte

/-- Everything that is hashed on the way to a plan digest. -/
def ChangePlan.transcripts (locale : Locale) (db : Database) (plan : ChangePlan) : Set Text :=
  {plan.payload, frames (db.stateTranscript locale plan.domainID plan.domain),
    frames (db.aliasTranscript plan.domainID),
    frames (db.queueTranscript locale plan.domainID plan.domain)}

theorem aliasTranscript_frameable (domainID : Uuid) : Frameable (db.aliasTranscript domainID) := by
  intro value hvalue
  rcases List.mem_cons.mp hvalue with rfl | hvalue
  · decide
  · rcases List.mem_flatMap.mp hvalue with ⟨found, _, hvalue⟩
    have hid := found.id.canonical
    simp only [isUuid, Bool.and_eq_true, beq_iff_eq] at hid
    have hlocal := found.localPart_small
    have htargets := found.targetsJSON_small
    simp only [AliasRow.values, List.mem_cons, List.not_mem_nil, or_false] at hvalue
    rcases hvalue with rfl | rfl | rfl <;> omega

theorem length_of_validLongQueueID {queueID : Text} (hid : validLongQueueID queueID = true) :
    queueID.length ≤ maxPostfixQueueIDBytes := by
  simp only [validLongQueueID, Bool.and_eq_true] at hid
  exact of_decide_eq_true hid.1.1.2

theorem length_of_validLowerHexDigest (hdigest : validLowerHexDigest digest = true) :
    digest.length = 64 := by
  simp only [validLowerHexDigest, Bool.and_eq_true, beq_iff_eq] at hdigest
  exact hdigest.1

theorem QueuedRow.Sound.frameable (hp : p.Lookup) {queued : QueuedRow}
    (hqueued : queued.Sound p domain) : Frameable queued.values := by
  rcases hqueued with ⟨hid, harrival, hrecipients, hsources, recipientDomain, hnormal, _⟩
  have hrecipient : queued.recipient.length ≤ 254 := hp.length_le_of_accepted hnormal hnormal
  have hqueue : queued.queueID.length ≤ 100 := length_of_validLongQueueID hid
  have hfirst := length_of_validLowerHexDigest harrival
  have hsecond := length_of_validLowerHexDigest hrecipients
  have hthird := length_of_validLowerHexDigest hsources
  intro value hvalue
  simp only [QueuedRow.values, List.mem_cons, List.not_mem_nil, or_false] at hvalue
  rcases hvalue with rfl | rfl | rfl | rfl | rfl <;> omega

theorem ChangePlan.Describes.queue_frameable (hp : p.Lookup)
    (hplan : plan.Describes locale p db rawDomain requested row) :
    Frameable (db.queueTranscript locale row.id row.name) := by
  intro value hvalue
  rcases List.mem_cons.mp hvalue with rfl | hvalue
  · decide
  · rcases List.mem_flatMap.mp hvalue with ⟨queued, hqueued, hvalue⟩
    exact (hplan.queued queued hqueued).frameable hp value hvalue

theorem stateTranscript_frameable (domainID : Uuid) (domain : Text) :
    Frameable (db.stateTranscript locale domainID domain) := by
  intro value hvalue
  simp only [Database.stateTranscript, digestStrings, List.mem_cons,
    List.not_mem_nil, or_false] at hvalue
  rcases hvalue with rfl | rfl | rfl
  · decide
  · rw [length_sumHex]
    decide
  · rw [length_sumHex]
    decide

theorem ChangePlan.Describes.mem_transcripts
    (hplan : plan.Describes locale p db rawDomain requested row) :
    plan.payload ∈ plan.transcripts locale db ∧ frames (db.stateTranscript locale row.id row.name) ∈
        plan.transcripts locale db ∧
      frames (db.aliasTranscript row.id) ∈ plan.transcripts locale db ∧
      frames (db.queueTranscript locale row.id row.name) ∈
        plan.transcripts locale db := by
  unfold ChangePlan.transcripts
  rw [hplan.domainID, hplan.domain]
  exact ⟨.inl rfl, .inr (.inl rfl), .inr (.inr (.inl rfl)), .inr (.inr (.inr rfl))⟩

theorem digestStrings_injective {inputs : Set Text} {left right : List Text}
    (hsha : Set.InjOn sum256 inputs) (hleft : Frameable left)
    (hright : Frameable right) (hmember : frames left ∈ inputs) (hother : frames right ∈ inputs)
    (heq : digestStrings left = digestStrings right) : left = right :=
  frames_injective hleft hright (sumHex_injective hsha hmember hother heq)

theorem QueuedRow.values_injective {left right : QueuedRow}
    (heq : left.values = right.values) : left = right := by
  rcases left with ⟨queueID, arrival, recipients, sources, recipient⟩
  simp only [QueuedRow.values, List.cons.injEq, and_true] at heq
  rcases heq with ⟨rfl, rfl, rfl, rfl, rfl⟩
  rfl

/-- Equal state digests stand for equal alias and queue rows. -/
theorem ChangePlan.Describes.rows_eq (hp : p.Lookup)
    (hplan : plan.Describes locale p db rawDomain requested row)
    (hother : other.Describes locale p later otherDomain otherScope otherRow)
    (hsha : Set.InjOn sum256 (plan.transcripts locale db ∪ other.transcripts locale later))
    (heq : plan.stateDigest = other.stateDigest) :
    (db.enabledAliases row.id).map AliasRow.values =
        (later.enabledAliases otherRow.id).map AliasRow.values ∧
      db.queuedRows locale row.id row.name = later.queuedRows locale otherRow.id otherRow.name := by
  rcases hplan.mem_transcripts with ⟨_, hstate, halias, hqueue⟩
  rcases hother.mem_transcripts with ⟨_, hstate', halias', hqueue'⟩
  rw [hplan.stateDigest, hother.stateDigest] at heq
  have hstates := digestStrings_injective hsha (stateTranscript_frameable row.id row.name)
    (stateTranscript_frameable otherRow.id otherRow.name) (.inl hstate) (.inr hstate') heq
  rcases List.cons.inj hstates with ⟨_, hdigests⟩
  rcases List.cons.inj hdigests with ⟨haliasDigest, hqueueDigest⟩
  have haliases := digestStrings_injective hsha
    (aliasTranscript_frameable row.id) (aliasTranscript_frameable otherRow.id)
    (.inl halias) (.inr halias') haliasDigest
  have hqueued := digestStrings_injective hsha (hplan.queue_frameable hp)
    (hother.queue_frameable hp) (.inl hqueue) (.inr hqueue') (List.cons.inj hqueueDigest).1
  constructor
  · exact map_eq_of_flatMap_eq (Nat.succ_pos 2) (fun _ => rfl) (List.cons.inj haliases).2
  · exact map_injective_on (fun _ _ _ _ hvalues => QueuedRow.values_injective hvalues)
      (map_eq_of_flatMap_eq (Nat.succ_pos 4) (fun _ => rfl) (List.cons.inj hqueued).2)

/-- A confirmation is accepted when it decodes to the digest of the plan. -/
theorem decodeHex_of_equalPlanDigest {text confirmation : Text}
    (hequal : equalPlanDigest (sumHex text) confirmation = true) :
    decodeHex confirmation = some (sum256 text) := by
  simp only [equalPlanDigest, sumHex, decodeHex_encodeHex, Bool.and_eq_true] at hequal
  cases hdecoded : decodeHex confirmation with
  | none =>
    rw [hdecoded] at hequal
    cases hequal.2
  | some bytes =>
    rw [hdecoded] at hequal
    simp only [Bool.and_eq_true, beq_iff_eq] at hequal
    rw [hequal.2.2]

theorem ChangePlan.rescope_id (plan : ChangePlan) (now : Time) (row : DomainRow) :
    (row.rescope plan.requestedScope now).id = row.id := rfl

def ChangePlan.outcome (plan : ChangePlan) (now : Time) (actor : ActorRef)
    (correlationID : Text) (db : Database) : Database :=
  { db with
    domains := db.domains.update (fun row => decide (row.id = plan.domainID) && plan.sees row)
      (DomainRow.rescope plan.requestedScope now) (plan.rescope_id now)
    audit := db.audit ++ [plan.event now actor correlationID] }

theorem enabledDomain_find {row : DomainRow} (hrow : db.enabledDomain domain = some row) :
    db.domains.find? row.id = some row :=
  Table.find?_eq_some_iff.mpr ⟨List.mem_of_find?_eq_some hrow, rfl⟩

variable {now : Time} {actor : ActorRef} {correlationID confirmation : Text} {result : ChangeResult}

theorem updateScope_ok_iff :
    db.updateScope plan now = .ok next ↔ (∃ row, db.domains.find? plan.domainID = some row ∧
        row.revision = plan.revision ∧ row.revision + 1 < 2 ^ 63) ∧
      next = { db with
        domains := db.domains.update (fun row => decide (row.id = plan.domainID) && plan.sees row)
          (DomainRow.rescope plan.requestedScope now) fun _ => rfl } := by
  simp only [Database.updateScope, bind_ok_iff, checkSql_ok_iff, check_ok_iff,
    beq_iff_eq, Table.matching_length_eq_one_iff, pure_ok_iff]
  constructor
  · rintro ⟨_, hsmall, _, ⟨row, hrow, hsees⟩, rfl⟩
    have hrevision : row.revision = plan.revision := of_decide_eq_true hsees
    rw [Table.matching_eq, hrow] at hsmall
    simp only [Option.filter, hsees, if_true, Option.toList_some,
      List.all_cons, List.all_nil, Bool.and_true, decide_eq_true_eq] at hsmall
    exact ⟨⟨row, hrow, hrevision, hsmall⟩, rfl⟩
  · rintro ⟨⟨row, hrow, hrevision, hsmall⟩, rfl⟩
    have hsees : plan.sees row = true := decide_eq_true hrevision
    refine ⟨(), ?_, (), ⟨row, hrow, hsees⟩, rfl⟩
    rw [Table.matching_eq, hrow]
    simpa [Option.filter, hsees] using hsmall

/-- What an accepted application has checked and done. -/
theorem applyChangeTx_ok (happly : db.applyChangeTx locale p now actor correlationID rawDomain
      requested confirmation = .ok (result, next)) :
    ∃ row, result.plan.Describes locale p db rawDomain requested row ∧
      decodeHex confirmation = some (sum256 result.plan.payload) ∧
      ((result.changed = false ∧ next = db) ∨ (result.changed = true ∧
          next = result.plan.outcome now actor correlationID db)) := by
  simp only [Database.applyChangeTx, bind_ok_iff, check_ok_iff] at happly
  rcases happly with ⟨_, _, plan, hplan, _, hequal, hrest⟩
  rcases loadChangePlan_describes hplan with ⟨row, hrow⟩
  rw [hrow.digest] at hequal
  have hconfirmed := decodeHex_of_equalPlanDigest hequal
  by_cases hsame : plan.currentScope = plan.requestedScope
  · rw [if_pos hsame, pure_ok_iff] at hrest
    cases hrest
    exact ⟨row, hrow, hconfirmed, .inl ⟨rfl, rfl⟩⟩
  · rw [if_neg hsame] at hrest
    simp only [bind_ok_iff, updateScope_ok_iff, Database.writeAudit,
      checkSql_ok_iff, pure_ok_iff] at hrest
    rcases hrest with ⟨_, ⟨_, rfl⟩, _, ⟨_, _, rfl⟩, hresult⟩
    cases hresult
    exact ⟨row, hrow, hconfirmed, .inr ⟨rfl, rfl⟩⟩

variable {ending : CommitEnd}

theorem applyChange_ok (happly : db.applyChange locale p ending now actor correlationID rawDomain
      requested confirmation = (.ok result, next)) :
    db.applyChangeTx locale p now actor correlationID rawDomain requested confirmation =
      .ok (result, next) := by
  unfold Database.applyChange at happly
  split at happly
  · cases happly
  · next found after htx =>
      rw [htx]
      split at happly
      · obtain ⟨-, rfl, rfl⟩ := CommitEnd.settle_ok_iff.mp happly
        rfl
      · cases happly
        rfl

/-- An application that fails has changed nothing, unless the answer to its COMMIT was
lost. -/
theorem applyChange_error {reason : Error}
    (happly : db.applyChange locale p ending now actor correlationID rawDomain
      requested confirmation = (.error reason, next)) :
    next = db ∨ ending = .lost ∧ ∃ result, result.changed = true ∧
      db.applyChangeTx locale p now actor correlationID rawDomain requested confirmation =
        .ok (result, next) := by
  unfold Database.applyChange at happly
  split at happly
  · cases happly
    exact .inl rfl
  · next found after htx =>
      split at happly
      · next hchanged =>
          refine (CommitEnd.settle_error happly).imp_right fun ⟨hlost, hnext⟩ => ?_
          exact ⟨hlost, found, hchanged, by rw [htx, hnext]⟩
      · cases happly

theorem find?_outcome (id : Uuid) :
    (plan.outcome now actor correlationID db).domains.find? id =
      (db.domains.find? id).map fun row =>
        if decide (row.id = plan.domainID) && plan.sees row then
          row.rescope plan.requestedScope now
        else row :=
  Table.find?_update db.domains _ (DomainRow.rescope plan.requestedScope now) (fun _ => rfl) id

theorem ChangePlan.Describes.find?_outcome
    (hplan : plan.Describes locale p db rawDomain requested row) :
    (plan.outcome now actor correlationID db).domains.find? plan.domainID =
      some (row.rescope requested now) := by
  have hsees : plan.sees row = true := decide_eq_true hplan.revision.symm
  rw [GotthMail.find?_outcome, hplan.domainID, enabledDomain_find hplan.found,
    Option.map_some, hplan.requestedScope]
  simp [hsees]

/-- No operation removes a domain or lowers its policy revision. -/
def Database.KeepsRevisions (db next : Database) : Prop :=
  ∀ id row, db.domains.find? id = some row →
    ∃ after, next.domains.find? id = some after ∧ row.revision ≤ after.revision

theorem outcome_keepsRevisions : db.KeepsRevisions (plan.outcome now actor correlationID db) := by
  intro id row hrow
  rw [find?_outcome, hrow, Option.map_some]
  split
  · exact ⟨_, rfl, Int.le_add_one (Int.le_refl _)⟩
  · exact ⟨_, rfl, Int.le_refl _⟩

/-- One step of the system as far as policy revisions are concerned. -/
inductive PolicyStep (locale : Locale) (p : Platform) :
    Database → Database → Prop
  | apply {db next : Database} {ending : CommitEnd} {now : Time} {actor : ActorRef}
      {correlationID domain : Text} {requested : Scope} {confirmation : Text}
      {answer : Except Error ChangeResult}
      (happly : db.applyChange locale p ending now actor correlationID domain requested
        confirmation = (answer, next)) : PolicyStep locale p db next
  | other {db next : Database} (hkeeps : db.KeepsRevisions next) : PolicyStep locale p db next

theorem keepsRevisions_refl (db : Database) : db.KeepsRevisions db :=
  fun _ row hrow => ⟨row, hrow, Int.le_refl _⟩

theorem applyChangeTx_keepsRevisions
    (happly : db.applyChangeTx locale p now actor correlationID rawDomain requested confirmation =
      .ok (result, next)) : db.KeepsRevisions next := by
  rcases applyChangeTx_ok happly with ⟨_, _, _, ⟨_, rfl⟩ | ⟨_, rfl⟩⟩
  · exact keepsRevisions_refl _
  · exact outcome_keepsRevisions

theorem PolicyStep.keepsRevisions (hstep : PolicyStep locale p db next) :
    db.KeepsRevisions next := by
  cases hstep with
  | other hkeeps => exact hkeeps
  | @apply _ _ _ _ _ _ _ answer happly =>
    cases answer with
    | error reason =>
      rcases applyChange_error happly with rfl | ⟨-, result, -, htx⟩
      · exact keepsRevisions_refl _
      · exact applyChangeTx_keepsRevisions htx
    | ok result => exact applyChangeTx_keepsRevisions (applyChange_ok happly)

theorem keepsRevisions_of_steps (hsteps : Relation.ReflTransGen (PolicyStep locale p) db next) :
    db.KeepsRevisions next := by
  induction hsteps with
  | refl => exact keepsRevisions_refl db
  | tail _ hstep ih =>
    intro id row hrow
    rcases ih id row hrow with ⟨middle, hmiddle, hfirst⟩
    rcases hstep.keepsRevisions id middle hmiddle with
      ⟨after, hafter, hsecond⟩
    exact ⟨after, hafter, Int.le_trans hfirst hsecond⟩

/-- One confirmation names one domain at one revision. -/
theorem ChangePlan.Describes.agree (hp : p.Lookup)
    (hplan : plan.Describes locale p db rawDomain requested row)
    (hother : other.Describes locale p later otherDomain otherScope otherRow)
    (hsha : Set.InjOn sum256 {plan.payload, other.payload})
    (heq : sum256 plan.payload = sum256 other.payload) :
    (row.id = otherRow.id ∧ row.name = otherRow.name ∧
      row.scope = otherRow.scope ∧ requested = otherScope ∧ row.revision = otherRow.revision) ∧
      plan.stateDigest = other.stateDigest := by
  have hpayload := hsha (.inl rfl) (.inr rfl) heq
  rcases (hplan.plain hp).payload_injective (hother.plain hp) hpayload with
    ⟨hid, hdomain, hcurrent, hrequested, hrevision, hstate⟩
  rw [hplan.domainID, hother.domainID] at hid
  rw [hplan.domain, hother.domain] at hdomain
  rw [hplan.currentScope, hother.currentScope] at hcurrent
  rw [hplan.requestedScope, hother.requestedScope] at hrequested
  rw [← hplan.revision, ← hother.revision, hrevision]
  exact ⟨⟨Uuid.text_injective hid, hdomain, hcurrent, hrequested, rfl⟩, hstate⟩

theorem ChangePlan.Describes.payloads_subset
    (hplan : plan.Describes locale p db rawDomain requested row)
    (hother : other.Describes locale p later otherDomain otherScope otherRow) :
    {plan.payload, other.payload} ⊆ plan.transcripts locale db ∪ other.transcripts locale later :=
  Set.insert_subset (.inl hplan.mem_transcripts.1)
    (Set.singleton_subset_iff.mpr (.inr hother.mem_transcripts.1))

theorem accepted_binds (hp : p.Lookup)
    (hpreview : db.previewChange locale p rawDomain requested = .ok plan)
    (happly : later.applyChangeTx locale p now actor correlationID otherDomain
      otherScope plan.digest = .ok (result, next))
    (hsha : Set.InjOn sum256 (plan.transcripts locale db ∪ result.plan.transcripts locale later)) :
    ∃ row otherRow, plan.Describes locale p db rawDomain requested row ∧
      result.plan.Describes locale p later otherDomain otherScope otherRow ∧
      (row.id = otherRow.id ∧ row.name = otherRow.name ∧
        row.scope = otherRow.scope ∧ requested = otherScope ∧ row.revision = otherRow.revision) ∧
      (db.enabledAliases row.id).map AliasRow.values =
        (later.enabledAliases otherRow.id).map AliasRow.values ∧
      db.queuedRows locale row.id row.name = later.queuedRows locale otherRow.id otherRow.name := by
  rcases loadChangePlan_describes hpreview with ⟨row, hplan⟩
  rcases applyChangeTx_ok happly with ⟨otherRow, hother, hconfirmed, _⟩
  have hsame : sum256 plan.payload = sum256 result.plan.payload := by
    rw [hplan.digest, sumHex, decodeHex_encodeHex] at hconfirmed
    exact Option.some.inj hconfirmed
  have hpair := hsha.mono (hplan.payloads_subset hother)
  rcases hplan.agree hp hother hpair hsame with ⟨hrows, hstate⟩
  exact ⟨row, otherRow, hplan, hother, hrows, hplan.rows_eq hp hother hsha hstate⟩

theorem applyChangeTx_changed (happly : db.applyChangeTx locale p now actor correlationID rawDomain
      requested confirmation = .ok (result, next))
    (hchanged : result.changed = true) :
    ∃ row, result.plan.Describes locale p db rawDomain requested row ∧
      decodeHex confirmation = some (sum256 result.plan.payload) ∧
      next = result.plan.outcome now actor correlationID db := by
  rcases applyChangeTx_ok happly with
    ⟨row, hplan, hconfirmed, ⟨hunchanged, _⟩ | ⟨_, hnext⟩⟩
  · rw [hchanged] at hunchanged
    cases hunchanged
  · exact ⟨row, hplan, hconfirmed, hnext⟩

theorem applyChange_effect {answer : Except Error ChangeResult}
    (happly : db.applyChange locale p ending now actor correlationID rawDomain
      requested confirmation = (answer, next))
    (hdone : (∃ result, answer = .ok result ∧ result.changed = true) ∨ next ≠ db) :
    ∃ result, result.changed = true ∧
      db.applyChangeTx locale p now actor correlationID rawDomain requested confirmation =
        .ok (result, next) := by
  cases answer with
  | error reason =>
    obtain ⟨_, hanswer, _⟩ | hne := hdone
    · cases hanswer
    · exact ((applyChange_error happly).resolve_left hne).2
  | ok found =>
    have htx := applyChange_ok happly
    refine ⟨found, ?_, htx⟩
    obtain ⟨_, hanswer, hchanged⟩ | hne := hdone
    · cases hanswer
      exact hchanged
    · obtain ⟨_, _, _, ⟨_, hsame⟩ | ⟨hchanged, _⟩⟩ := applyChangeTx_ok htx
      · exact absurd hsame hne
      · exact hchanged

/-- The revision under which a change was confirmed never comes back. -/
theorem applyChangeTx_once (hp : p.Lookup) {otherNow : Time}
    {otherActor : ActorRef} {otherID : Text} {again : ChangeResult} {final : Database}
    (happly : db.applyChangeTx locale p now actor correlationID rawDomain
      requested confirmation = .ok (result, next))
    (hchanged : result.changed = true)
    (hsteps : Relation.ReflTransGen (PolicyStep locale p) next later)
    (hagain : later.applyChangeTx locale p otherNow otherActor otherID otherDomain
      otherScope confirmation = .ok (again, final))
    (hsha : Set.InjOn sum256 {result.plan.payload, again.plan.payload}) :
    False := by
  rcases applyChangeTx_changed happly hchanged with
    ⟨row, hplan, hconfirmed, rfl⟩
  rcases applyChangeTx_ok hagain with ⟨otherRow, hother, hconfirmed', _⟩
  have hsame := Option.some.inj (hconfirmed.symm.trans hconfirmed')
  rcases hplan.agree hp hother hsha hsame with ⟨⟨hid, _, _, _, hrevision⟩, _⟩
  rcases keepsRevisions_of_steps hsteps _ _ hplan.find?_outcome with
    ⟨after, hafter, hle⟩
  -- The row that the second application read is this later row.
  rw [hplan.domainID, hid, enabledDomain_find hother.found] at hafter
  cases hafter
  change row.revision + 1 ≤ otherRow.revision at hle
  omega

/-- An accepted confirmation names the state that was previewed; a failed
application changes nothing, except that the answer to its COMMIT may be lost; a
successful one raises the revision by one and leaves one event; and of two accepted
applications of one confirmation, whatever they answer and however they are interleaved
with other steps, not both come through. -/
theorem confirmed_change (hp : p.Lookup) :
    (∀ (db later next : Database) (rawDomain otherDomain : Text)
        (requested otherScope : Scope) (plan : ChangePlan) (ending : CommitEnd) (now : Time)
        (actor : ActorRef) (correlationID : Text) (result : ChangeResult),
      db.previewChange locale p rawDomain requested = .ok plan →
      later.applyChange locale p ending now actor correlationID otherDomain otherScope
        plan.digest = (.ok result, next) →
      Set.InjOn sum256 (plan.transcripts locale db ∪ result.plan.transcripts locale later) →
      ∃ row otherRow, p.normalizeDomain rawDomain = .ok row.name ∧
        db.enabledDomain row.name = some row ∧ p.normalizeDomain otherDomain = .ok otherRow.name ∧
        later.enabledDomain otherRow.name = some otherRow ∧
        (row.id = otherRow.id ∧ row.name = otherRow.name ∧
          row.scope = otherRow.scope ∧ requested = otherScope ∧ row.revision = otherRow.revision) ∧
        (db.enabledAliases row.id).map AliasRow.values =
          (later.enabledAliases otherRow.id).map AliasRow.values ∧
        db.queuedRows locale row.id row.name = later.queuedRows locale otherRow.id otherRow.name) ∧
    (∀ (db next : Database) (domain : Text) (requested : Scope)
        (confirmation : Text) (ending : CommitEnd) (now : Time) (actor : ActorRef)
        (correlationID : Text) (reason : Error),
      db.applyChange locale p ending now actor correlationID domain requested
        confirmation = (.error reason, next) → ending ≠ .lost → next = db) ∧
    (∀ (db next : Database) (domain : Text) (requested : Scope)
        (confirmation : Text) (ending : CommitEnd) (now : Time) (actor : ActorRef)
        (correlationID : Text) (answer : Except Error ChangeResult),
      db.applyChange locale p ending now actor correlationID domain requested
        confirmation = (answer, next) →
      (∃ result, answer = .ok result ∧ result.changed = true) ∨ next ≠ db →
      ∃ row, p.normalizeDomain domain = .ok row.name ∧ db.enabledDomain row.name = some row ∧
        next.domains.find? row.id = some { row with
          scope := requested, revision := row.revision + 1, updatedAt := now } ∧
        ∃ event, next.audit = db.audit ++ [event]) ∧
    (∀ (db next later final : Database) (domain otherDomain : Text)
        (requested otherScope : Scope) (confirmation : Text)
        (now otherNow : Time) (actor otherActor : ActorRef)
        (correlationID otherID : Text) (result other : ChangeResult),
      db.applyChangeTx locale p now actor correlationID domain requested
        confirmation = .ok (result, next) →
      result.changed = true → Relation.ReflTransGen (PolicyStep locale p) next later →
      later.applyChangeTx locale p otherNow otherActor otherID otherDomain
        otherScope confirmation = .ok (other, final) →
      Set.InjOn sum256 {result.plan.payload, other.plan.payload} → False) := by
  refine ⟨?_, ?_, ?_, ?_⟩
  · intro db later next rawDomain otherDomain requested otherScope plan ending now actor
      correlationID result hpreview happly hsha
    rcases accepted_binds hp hpreview (applyChange_ok happly) hsha with
      ⟨row, otherRow, hplan, hother, hbound⟩
    exact ⟨row, otherRow, hplan.normal, hplan.found, hother.normal, hother.found, hbound⟩
  · intro db next domain requested confirmation ending now actor correlationID reason happly hlost
    exact (applyChange_error happly).resolve_right fun hcommitted => hlost hcommitted.1
  · intro db next domain requested confirmation ending now actor correlationID answer happly hdone
    obtain ⟨result, hchanged, htx⟩ := applyChange_effect happly hdone
    rcases applyChangeTx_changed htx hchanged with ⟨row, hplan, _, rfl⟩
    have hafter : (result.plan.outcome now actor correlationID db).domains.find?
        result.plan.domainID = some (row.rescope requested now) := hplan.find?_outcome
    rw [hplan.domainID] at hafter
    exact ⟨row, hplan.normal, hplan.found, hafter, _, rfl⟩
  · intro db next later final domain otherDomain requested otherScope
      confirmation now otherNow actor otherActor correlationID otherID result
      other happly hchanged hsteps hagain hsha
    exact applyChangeTx_once hp happly hchanged hsteps hagain hsha

def singleDomain : Database :=
  { Database.empty with
    domains := ⟨[{
      id := firstUuid
      name := ascii "example.test"
      enabled := true
      scope := .unrestricted
      revision := 1
      updatedAt := 1 }], List.nodup_singleton _⟩ }

def restrictPlan : ChangePlan :=
  let plan : ChangePlan := {
    digest := []
    domainID := firstUuid
    domain := ascii "example.test"
    currentScope := .unrestricted
    requestedScope := .sameDomainOnly
    revision := 1
    impact := ⟨0, 0, 0⟩
    stateDigest := digestStrings [stateContract, digestStrings [aliasContract],
      digestStrings [queueContract]]
    affectedQueueIDs := [] }
  { plan with digest := sumHex plan.payload }

theorem equalPlanDigest_self (text : Text) :
    equalPlanDigest (sumHex text) (sumHex text) = true := by
  simp [equalPlanDigest, sumHex, decodeHex_encodeHex, length_sum256]

theorem injOn_of_nodup {α β : Type} {f : α → β} {inputs : List α}
    (hnodup : (inputs.map f).Nodup) : Set.InjOn f { input | input ∈ inputs } :=
  fun _ hfirst _ hsecond heq => List.inj_on_of_nodup_map hnodup hfirst hsecond heq

set_option maxRecDepth 100000 in
theorem restrictPlan_previewed :
    singleDomain.previewChange byteLocale asciiPlatform (ascii "example.test")
      .sameDomainOnly = .ok restrictPlan := by
  simp only [Database.previewChange, Database.loadChangePlan, planDigest, bind_ok_iff,
    pure_ok_iff, check_ok_iff, checkSql_ok_iff, require_ok_iff, Prod.exists]
  exact ⟨(), rfl, ascii "example.test", by decide +kernel, _, rfl, (), rfl, (),
    rfl, _, _, rfl, _, _, _, rfl, _, ⟨(), validLowerHexDigest_sumHex _, rfl⟩, rfl⟩

def restrictActor : ActorRef := ⟨ascii "user", ascii "admin"⟩

set_option maxRecDepth 100000 in
theorem restrictPlan_applied :
    singleDomain.applyChangeTx byteLocale asciiPlatform 2 restrictActor (ascii "request-1")
        (ascii "example.test") .sameDomainOnly restrictPlan.digest =
      .ok (⟨restrictPlan, true, none⟩,
        restrictPlan.outcome 2 restrictActor (ascii "request-1") singleDomain) := by
  simp only [Database.applyChangeTx, bind_ok_iff, check_ok_iff]
  refine ⟨(), by decide +kernel, restrictPlan, restrictPlan_previewed, (),
    equalPlanDigest_self _, ?_⟩
  rw [if_neg (by decide)]
  simp only [bind_ok_iff, updateScope_ok_iff, Database.writeAudit, checkSql_ok_iff, pure_ok_iff]
  exact ⟨_, ⟨⟨_, rfl, rfl, by decide⟩, rfl⟩, _, ⟨(), by decide +kernel, rfl⟩, rfl⟩

theorem restrictPlan_settled (ending : CommitEnd) :
    singleDomain.applyChange byteLocale asciiPlatform ending 2 restrictActor (ascii "request-1")
        (ascii "example.test") .sameDomainOnly restrictPlan.digest =
      ending.settle .sql ⟨restrictPlan, true, none⟩ singleDomain
        (restrictPlan.outcome 2 restrictActor (ascii "request-1") singleDomain) := by
  rw [Database.applyChange, restrictPlan_applied]
  rfl

set_option maxRecDepth 100000 in
theorem confirmed_change_restrict :
    singleDomain.previewChange byteLocale asciiPlatform (ascii "example.test")
        .sameDomainOnly = .ok restrictPlan ∧
      ∃ result next, singleDomain.applyChange byteLocale asciiPlatform .done 2 restrictActor
          (ascii "request-1") (ascii "example.test") .sameDomainOnly restrictPlan.digest =
          (.ok result, next) ∧
        (∃ row otherRow : DomainRow, singleDomain.enabledDomain row.name = some row ∧
          singleDomain.enabledDomain otherRow.name = some otherRow ∧
          row.revision = otherRow.revision) ∧
        (∃ row, next.domains.find? restrictPlan.domainID = some row ∧ row.revision = 2) := by
  have hsha : ([restrictPlan.payload,
      frames (singleDomain.stateTranscript byteLocale restrictPlan.domainID restrictPlan.domain),
      frames (singleDomain.aliasTranscript restrictPlan.domainID),
      frames (singleDomain.queueTranscript byteLocale restrictPlan.domainID
        restrictPlan.domain)].map sum256).Nodup := by
    decide +kernel
  have happly := restrictPlan_settled .done
  refine ⟨restrictPlan_previewed, _, _, happly, ?_, ?_⟩
  · rcases (confirmed_change asciiPlatform_lookup).1 _ _ _ _ _ _ _ _ _ _ _ _ _
        restrictPlan_previewed happly (by
          rw [Set.union_self]
          exact (injOn_of_nodup hsha).mono (by
            rintro text (h | h | h | h) <;> rw [h] <;> simp)) with
      ⟨row, otherRow, _, hrow, _, hother, hagree, _⟩
    exact ⟨row, otherRow, hrow, hother, hagree.2.2.2.2⟩
  · rcases (confirmed_change asciiPlatform_lookup).2.2.1 _ _ _ _ _ _ _ _ _ _
      happly (.inl ⟨_, rfl, rfl⟩) with ⟨row, _, hrow, hnext, _⟩
    obtain rfl := List.mem_singleton.mp (List.mem_of_find?_eq_some hrow)
    exact ⟨_, hnext, rfl⟩

/-- The answer to a COMMIT is lost: the application returns an error, and the domain has
the new scope, another revision and an event in the log. -/
theorem lost_commit_changes : ∃ next,
    singleDomain.applyChange byteLocale asciiPlatform .lost 2 restrictActor (ascii "request-1")
        (ascii "example.test") .sameDomainOnly restrictPlan.digest = (.error .sql, next) ∧
      (next.domains.find? firstUuid).map DomainRow.revision = some 2 ∧
      (singleDomain.domains.find? firstUuid).map DomainRow.revision = some 1 ∧
      next.audit.length = 1 := by
  exact ⟨_, restrictPlan_settled .lost, by decide +kernel, by decide +kernel, rfl⟩

end GotthMail
