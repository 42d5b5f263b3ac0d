/-
The durable record of one Postfix queue file: its immutable arrival identity,
the canonical form in which a registration is compared, and the checks that
stored rows have to pass before anything uses them.
-/
import GotthMail.Policy
import GotthMail.Relational
import GotthMail.Sha256

namespace GotthMail

open Bytes Framing Sha256 Relational

inductive SourceKind where
  | authenticatedMailbox
  | envelopeSender
  | systemSender
  | alias
  | forward
  | list
  | catchAll
  | other (raw : Text)
deriving DecidableEq, Repr

def SourceKind.text : SourceKind → Text
  | .authenticatedMailbox => ascii "authenticated_mailbox"
  | .envelopeSender => ascii "envelope_sender"
  | .systemSender => ascii "system_sender"
  | .alias => ascii "alias"
  | .forward => ascii "forward"
  | .list => ascii "list"
  | .catchAll => ascii "catch_all"
  | .other raw => raw

inductive HoldState where
  | pending
  | required
  | reconciling
  | applied
  | reconciliationError
  | releaseReconciling
  | releaseError
  | released
  | other (raw : Text)
deriving DecidableEq, Repr

structure QueueSource where
  kind : SourceKind
  objectID : Text
deriving DecidableEq, Repr

structure QueueRegistration where
  queueID : Text
  arrivalFingerprint : Text
  envelopeSender : Text
  recipients : List Text
  sources : List QueueSource
deriving DecidableEq, Repr

/-- Microseconds since the zero time. -/
abbrev Time := Int

structure QueueRecord where
  queueID : Text
  arrivalFingerprint : Text
  envelopeSender : Text
  recipientSetDigest : Text
  sourceSetDigest : Text
  holdState : HoldState
  policyReason : Option Reason
  policyRevisions : RevisionMap
  reconciliationAttempts : Nat
  lastErrorCode : Option Text
  firstSeenAt : Time
  updatedAt : Time
  recipients : List Text
  sources : List QueueSource
deriving DecidableEq

def maxQueueRecipients : Nat := 10000

def maxQueueSources : Nat := 64

def maxQueueObjectID : Nat := 320

def validLowerHexDigest (value : Text) : Bool := value.length == 64 && value.all isLowerHex

def validSourceKind : SourceKind → Bool
  | .other _ => false
  | _ => true

def validHoldState : HoldState → Bool
  | .other _ => false
  | _ => true

def validQueueReason (reason : Reason) : Bool :=
  reason == .policyHold || reason == .crossDomainConflict || reason == .unavailable

/-- Neither trimming, nor invalid UTF-8, nor controls, nor excess length. -/
def validQueueObjectID (id : Text) : Bool :=
  decide (0 < id.length ∧ id.length ≤ maxQueueObjectID) && validUTF8 id &&
    trimSpace id == id && (decode id).all fun rune => !isControl rune

def QueueSource.valid (source : QueueSource) : Bool :=
  validSourceKind source.kind && validQueueObjectID source.objectID

def validQueuePolicyState (state : HoldState) (reason : Option Reason)
    (revisions : RevisionMap) : Bool :=
  if state = .pending then reason.isNone && revisions.keys.card == 0
  else reason.any validQueueReason && decide (0 < revisions.keys.card)

def isErrorCodeByte (byte : UInt8) : Bool :=
  decide (97 ≤ byte ∧ byte ≤ 122) || decide (48 ≤ byte ∧ byte ≤ 57) || byte == 95

def validQueueErrorCode (code : Text) : Bool :=
  decide (0 < code.length ∧ code.length ≤ 128) && code.all isErrorCodeByte

def digestStrings (values : List Text) : Text := sumHex (frames values)

/-- The values that stand for a set of sources, kind and identifier apart. -/
def sourceFrames (sources : List QueueSource) : List Text :=
  sources.flatMap fun source => [source.kind.text, source.objectID]

def digestSources (sources : List QueueSource) : Text := sumHex (frames (sourceFrames sources))

def QueueSource.mapKey (source : QueueSource) : Text := source.kind.text ++ 0 :: source.objectID

def QueueSource.sortKey (source : QueueSource) : Text × Text := (source.kind.text, source.objectID)

def byteOrder : Collation Text := Collation.natural Text

/-- Collected in a map and sorted, so that order and repetition are lost. -/
def canonicalRecipients (recipients : List Text) : List Text :=
  byteOrder.sortBy id (distinctBy id recipients)

def canonicalSources (sources : List QueueSource) : List QueueSource :=
  (byteOrder.lex byteOrder).sortBy QueueSource.sortKey (distinctBy QueueSource.mapKey sources)

/-- The record of a canonical identity that nothing has happened to. -/
def pendingRecord (queueID arrivalFingerprint sender : Text)
    (recipients : List Text) (sources : List QueueSource) : QueueRecord where
  queueID := queueID
  arrivalFingerprint := arrivalFingerprint
  envelopeSender := sender
  recipientSetDigest := digestStrings recipients
  sourceSetDigest := digestSources sources
  holdState := .pending
  policyReason := none
  policyRevisions := ∅
  reconciliationAttempts := 0
  lastErrorCode := none
  firstSeenAt := 0
  updatedAt := 0
  recipients := recipients
  sources := sources

namespace Platform

variable (p : Platform)

def normalizeQueueRegistration (input : QueueRegistration) :
    Except Error QueueRecord := do
  check (validLongQueueID input.queueID) "invalid Postfix long queue ID"
  check (validLowerHexDigest input.arrivalFingerprint) "invalid queue arrival fingerprint"
  let sender ← p.normalizeQueueSender input.envelopeSender
  check (decide (0 < input.recipients.length ∧ input.recipients.length ≤ maxQueueRecipients))
    "outbound queue recipient limit violated"
  let normalized ← input.recipients.mapM p.normalizeQueueRecipient
  let recipients := canonicalRecipients (normalized.map Prod.fst)
  check (decide (0 < input.sources.length ∧ input.sources.length ≤ maxQueueSources))
    "outbound queue source limit violated"
  check (input.sources.all QueueSource.valid) "invalid outbound queue source"
  return pendingRecord input.queueID input.arrivalFingerprint sender recipients
    (canonicalSources input.sources)

/-- What a revision map claims for one of its domains. -/
def revisionClaim (entry : Sigma fun _ : Text => Nat) : Option (Text × Nat) :=
  match p.normalizeDomain entry.1 with
  | .error _ => none
  | .ok domain => if entry.2 = 0 then none else some (domain, entry.2)

/-- The loop over a revision map, in whatever order the map is ranged. -/
def collectRevisions (revisions : RevisionMap) : Option RevisionMap :=
  revisions.liftOn (fun entries => entries.entries.foldlM (Registry.record p.revisionClaim) ∅)
    (fun _ _ hperm => Registry.foldlM_congr fun _ => hperm.mem_iff)

/-- The revisions that caused a hold, by canonical domain.  A map with both an
invalid and a contradictory entry may be reported with either message. -/
def canonicalPolicyRevisions (revisions : RevisionMap) :
    Except Error RevisionMap :=
  if revisions.keys.card = 0 ∨ maxGoverningDomains < revisions.keys.card then
    .error (.text "invalid outbound queue policy revisions")
  else
    match p.collectRevisions revisions with
    | some canonical => .ok canonical
    | none =>
      if ∀ domain ∈ revisions.keys,
          (p.revisionClaim ⟨domain, (revisions.lookup domain).getD 0⟩).isSome
      then .error (.text "conflicting outbound queue policy revisions")
      else .error (.text "invalid outbound queue policy revisions")

end Platform

/-- A missing domain reads as revision zero. -/
def revisionMapsEqual (left right : RevisionMap) : Bool :=
  left.keys.card == right.keys.card && decide (∀ domain ∈ left.keys,
      (right.lookup domain).getD 0 = (left.lookup domain).getD 0)

/-- All immutable parent fields; the child sets count by their digests. -/
def sameQueueIdentity (left right : QueueRecord) : Bool :=
  left.queueID == right.queueID && left.arrivalFingerprint == right.arrivalFingerprint &&
    left.envelopeSender == right.envelopeSender &&
    left.recipientSetDigest == right.recipientSetDigest &&
    left.sourceSetDigest == right.sourceSetDigest

variable {α β : Type} {kind : SourceKind}

theorem mapM_ok_iff_forall₂ {f : α → Except Error β} {inputs : List α} {outputs : List β} :
    inputs.mapM f = .ok outputs ↔
      List.Forall₂ (fun input output => f input = .ok output) inputs outputs := by
  induction inputs generalizing outputs with
  | nil =>
    rw [List.mapM_nil, pure_ok_iff, List.forall₂_nil_left_iff, eq_comm]
  | cons head rest ih =>
    rw [List.mapM_cons, List.forall₂_cons_left_iff]
    simp only [bind_ok_iff, pure_ok_iff, ih]
    constructor
    · rintro ⟨first, hfirst, others, hothers, rfl⟩
      exact ⟨first, others, hfirst, hothers, rfl⟩
    · rintro ⟨first, others, hfirst, hothers, rfl⟩
      exact ⟨first, hfirst, others, hothers, rfl⟩

theorem mem_of_forall₂ {relation : α → β → Prop} {inputs : List α} {outputs : List β}
    (hall : List.Forall₂ relation inputs outputs) {output : β}
    (houtput : output ∈ outputs) : ∃ input ∈ inputs, relation input output := by
  induction hall with
  | nil => cases houtput
  | cons hhead htail ih =>
    rcases List.mem_cons.mp houtput with rfl | houtput
    · exact ⟨_, List.mem_cons_self, hhead⟩
    · obtain ⟨input, hinput, hrelated⟩ := ih houtput
      exact ⟨input, List.mem_cons_of_mem _ hinput, hrelated⟩

theorem forall₂_of_forall_ok {f : α → Except Error β} {inputs : List α}
    (hinputs : ∀ input ∈ inputs, ∃ output, f input = .ok output) :
    ∃ outputs, List.Forall₂ (fun input output => f input = .ok output)
      inputs outputs := by
  induction inputs with
  | nil => exact ⟨[], .nil⟩
  | cons head rest ih =>
    obtain ⟨first, hfirst⟩ := hinputs head List.mem_cons_self
    obtain ⟨others, hothers⟩ := ih fun input hinput => hinputs input (List.mem_cons_of_mem _ hinput)
    exact ⟨first :: others, .cons hfirst hothers⟩

theorem canonicalRecipients_sorted (recipients : List Text) :
    byteOrder.Sorted id (canonicalRecipients recipients) :=
  byteOrder.sortBy_sorted id _

theorem mem_canonicalRecipients {recipients : List Text} {recipient : Text} :
    recipient ∈ canonicalRecipients recipients ↔ recipient ∈ recipients := by
  rw [canonicalRecipients, Collation.mem_sortBy]
  exact mem_distinctBy_iff fun first _ second _ hsame => hsame

theorem canonicalRecipients_nodup (recipients : List Text) :
    (canonicalRecipients recipients).Nodup :=
  ((byteOrder.sortBy_perm id _).nodup_iff).mpr (distinctBy_nodup _)

/-- Canonical recipient lists are equal exactly when the sets are. -/
theorem canonicalRecipients_eq_iff {left right : List Text} :
    canonicalRecipients left = canonicalRecipients right ↔
      ∀ recipient, recipient ∈ left ↔ recipient ∈ right := by
  constructor
  · intro heq recipient
    rw [← mem_canonicalRecipients, heq, mem_canonicalRecipients]
  · intro hsame
    apply (canonicalRecipients_sorted left).eq_of_perm
      (canonicalRecipients_sorted right) (fun first _ second _ hkey => hkey)
    rw [List.perm_ext_iff_of_nodup (canonicalRecipients_nodup left)
      (canonicalRecipients_nodup right)]
    intro recipient
    rw [mem_canonicalRecipients, mem_canonicalRecipients]
    exact hsame recipient

def SourceKind.ofText (raw : Text) : SourceKind :=
  if raw = ascii "authenticated_mailbox" then .authenticatedMailbox
  else if raw = ascii "envelope_sender" then .envelopeSender
  else if raw = ascii "system_sender" then .systemSender
  else if raw = ascii "alias" then .alias
  else if raw = ascii "forward" then .forward
  else if raw = ascii "list" then .list
  else if raw = ascii "catch_all" then .catchAll
  else .other raw

theorem ofText_text (hkind : validSourceKind kind = true) : SourceKind.ofText kind.text = kind := by
  cases kind with
  | other raw => cases hkind
  | _ => decide

theorem validSourceKind_text_injective {left right : SourceKind}
    (hleft : validSourceKind left = true) (hright : validSourceKind right = true)
    (heq : left.text = right.text) : left = right := by
  rw [← ofText_text hleft, heq, ofText_text hright]

theorem validSourceKind_text_ne_zero (hkind : validSourceKind kind = true) :
    (0 : UInt8) ∉ kind.text := by
  cases kind with
  | other raw => cases hkind
  | _ => decide

theorem QueueSource.sortKey_injective {left right : QueueSource}
    (hleft : validSourceKind left.kind = true) (hright : validSourceKind right.kind = true)
    (heq : left.sortKey = right.sortKey) : left = right := by
  obtain ⟨hkind, hid⟩ := Prod.mk.inj heq
  cases left
  cases right
  simp only at hid hleft hright hkind
  rw [validSourceKind_text_injective hleft hright hkind, hid]

/-- The separator cannot occur in a kind, so the joined key splits in one way. -/
theorem QueueSource.mapKey_injective {left right : QueueSource}
    (hleft : validSourceKind left.kind = true) (hright : validSourceKind right.kind = true)
    (heq : left.mapKey = right.mapKey) : left = right := by
  obtain ⟨hkind, hid⟩ := append_separator_inj
    (validSourceKind_text_ne_zero hleft) (validSourceKind_text_ne_zero hright) heq
  exact QueueSource.sortKey_injective hleft hright (Prod.ext hkind hid)

theorem canonicalSources_sorted (sources : List QueueSource) :
    (byteOrder.lex byteOrder).Sorted QueueSource.sortKey (canonicalSources sources) :=
  (byteOrder.lex byteOrder).sortBy_sorted QueueSource.sortKey _

section ValidSources

variable {sources : List QueueSource} (hsources : ∀ source ∈ sources, source.valid = true)

include hsources

theorem kind_valid_of_mem {source : QueueSource} (hsource : source ∈ sources) :
    validSourceKind source.kind = true := by
  have hvalid := hsources source hsource
  rw [QueueSource.valid, Bool.and_eq_true] at hvalid
  exact hvalid.1

theorem mem_canonicalSources {source : QueueSource} :
    source ∈ canonicalSources sources ↔ source ∈ sources := by
  rw [canonicalSources, Collation.mem_sortBy]
  apply mem_distinctBy_iff
  intro first hfirst second hsecond hkey
  exact QueueSource.mapKey_injective (kind_valid_of_mem hsources hfirst)
    (kind_valid_of_mem hsources hsecond) hkey

omit hsources in
theorem canonicalSources_nodup : (canonicalSources sources).Nodup :=
  (((byteOrder.lex byteOrder).sortBy_perm QueueSource.sortKey _).nodup_iff).mpr (distinctBy_nodup _)

/-- Canonical source lists are equal exactly when the sets are. -/
theorem canonicalSources_eq_iff {others : List QueueSource}
    (hothers : ∀ source ∈ others, source.valid = true) :
    canonicalSources sources = canonicalSources others ↔
      ∀ source, source ∈ sources ↔ source ∈ others := by
  constructor
  · intro heq source
    rw [← mem_canonicalSources hsources, heq, mem_canonicalSources hothers]
  · intro hsame
    apply (canonicalSources_sorted sources).eq_of_perm (canonicalSources_sorted others)
    · intro first hfirst second hsecond hkey
      rw [mem_canonicalSources hsources] at hfirst hsecond
      exact QueueSource.sortKey_injective (kind_valid_of_mem hsources hfirst)
        (kind_valid_of_mem hsources hsecond) hkey
    · rw [List.perm_ext_iff_of_nodup canonicalSources_nodup canonicalSources_nodup]
      intro source
      rw [mem_canonicalSources hsources, mem_canonicalSources hothers]
      exact hsame source

end ValidSources

/-- What an accepted registration is known to satisfy. -/
structure Normalized (p : Platform) (input : QueueRegistration)
    (record : QueueRecord) : Prop where
  validID : validLongQueueID input.queueID = true
  validFingerprint : validLowerHexDigest input.arrivalFingerprint = true
  sender : p.normalizeQueueSender input.envelopeSender = .ok record.envelopeSender
  recipientCount : 0 < input.recipients.length ∧ input.recipients.length ≤ maxQueueRecipients
  recipients : ∃ normalized : List (Text × Text),
    List.Forall₂ (fun raw pair => p.normalizeQueueRecipient raw = .ok pair)
      input.recipients normalized ∧
    record.recipients = canonicalRecipients (normalized.map Prod.fst)
  sourceCount : 0 < input.sources.length ∧ input.sources.length ≤ maxQueueSources
  validSources : ∀ source ∈ input.sources, source.valid = true
  queueID : record.queueID = input.queueID
  fingerprint : record.arrivalFingerprint = input.arrivalFingerprint
  sources : record.sources = canonicalSources input.sources
  recipientDigest : record.recipientSetDigest = digestStrings record.recipients
  sourceDigest : record.sourceSetDigest = digestSources record.sources

variable {p : Platform} {input : QueueRegistration} {record : QueueRecord}

theorem normalizeQueueRegistration_ok_iff :
    p.normalizeQueueRegistration input = .ok record ↔ validLongQueueID input.queueID = true ∧
        validLowerHexDigest input.arrivalFingerprint = true ∧ (0 < input.recipients.length ∧
          input.recipients.length ≤ maxQueueRecipients) ∧
        (0 < input.sources.length ∧ input.sources.length ≤ maxQueueSources) ∧
        (∀ source ∈ input.sources, source.valid = true) ∧ ∃ sender normalized,
          p.normalizeQueueSender input.envelopeSender = .ok sender ∧
          List.Forall₂ (fun raw pair => p.normalizeQueueRecipient raw = .ok pair)
            input.recipients normalized ∧
          record = pendingRecord input.queueID input.arrivalFingerprint sender
            (canonicalRecipients (normalized.map Prod.fst)) (canonicalSources input.sources) := by
  simp only [Platform.normalizeQueueRegistration, bind_ok_iff, check_ok_iff,
    pure_ok_iff, decide_eq_true_eq, List.all_eq_true, mapM_ok_iff_forall₂]
  constructor
  · rintro ⟨_, hid, _, hprint, sender, hsender, _, hcount, normalized, hall, _,
      hsourceCount, _, hsources, rfl⟩
    exact ⟨hid, hprint, hcount, hsourceCount, hsources, sender, normalized, hsender, hall, rfl⟩
  · rintro ⟨hid, hprint, hcount, hsourceCount, hsources, sender, normalized, hsender, hall, rfl⟩
    exact ⟨(), hid, (), hprint, sender, hsender, (), hcount, normalized, hall,
      (), hsourceCount, (), hsources, rfl⟩

theorem normalizeQueueRegistration_ok (hinput : p.normalizeQueueRegistration input = .ok record) :
    Normalized p input record := by
  obtain ⟨hid, hprint, hcount, hsourceCount, hsources, sender, normalized,
    hsender, hall, rfl⟩ := normalizeQueueRegistration_ok_iff.mp hinput
  exact
    { validID := hid
      validFingerprint := hprint
      sender := hsender
      recipientCount := hcount
      recipients := ⟨normalized, hall, rfl⟩
      sourceCount := hsourceCount
      validSources := hsources
      queueID := rfl
      fingerprint := rfl
      sources := rfl
      recipientDigest := rfl
      sourceDigest := rfl }

theorem validLowerHexDigest_sumHex (text : Text) : validLowerHexDigest (sumHex text) = true := by
  simp only [validLowerHexDigest, length_sumHex, beq_self_eq_true, Bool.true_and, List.all_eq_true]
  intro digit hdigit
  exact isLowerHex_of_mem_sumHex hdigit

section Validity

variable (hrecord : Normalized p input record)

include hrecord

theorem Normalized.recordID_valid : validLongQueueID record.queueID = true := by
  rw [hrecord.queueID]
  exact hrecord.validID

theorem Normalized.fingerprint_valid : validLowerHexDigest record.arrivalFingerprint = true := by
  rw [hrecord.fingerprint]
  exact hrecord.validFingerprint

theorem Normalized.recipientDigest_valid :
    validLowerHexDigest record.recipientSetDigest = true := by
  rw [hrecord.recipientDigest]
  exact validLowerHexDigest_sumHex _

theorem Normalized.sourceDigest_valid : validLowerHexDigest record.sourceSetDigest = true := by
  rw [hrecord.sourceDigest]
  exact validLowerHexDigest_sumHex _

end Validity

/-- Order and repetition of recipients and sources do not matter. -/
theorem normalizeQueueRegistration_congr {other : QueueRegistration}
    (hinput : p.normalizeQueueRegistration input = .ok record) (hid : other.queueID = input.queueID)
    (hprint : other.arrivalFingerprint = input.arrivalFingerprint)
    (hsender : other.envelopeSender = input.envelopeSender)
    (hrecipients : ∀ raw, raw ∈ other.recipients ↔ raw ∈ input.recipients)
    (hsources : ∀ source, source ∈ other.sources ↔ source ∈ input.sources)
    (hcount : other.recipients.length ≤ maxQueueRecipients)
    (hsourceCount : other.sources.length ≤ maxQueueSources) :
    p.normalizeQueueRegistration other = .ok record := by
  obtain ⟨hvalid, hvalidPrint, hsome, hsomeSources, hvalidSources, sender,
    normalized, hnormal, hall, rfl⟩ := normalizeQueueRegistration_ok_iff.mp hinput
  have haccepted : ∀ raw ∈ other.recipients, ∃ pair, p.normalizeQueueRecipient raw = .ok pair := by
    intro raw hraw
    obtain ⟨pair, _, hpair⟩ := mem_of_forall₂ hall.flip ((hrecipients raw).mp hraw)
    exact ⟨pair, hpair⟩
  obtain ⟨again, hagain⟩ := forall₂_of_forall_ok haccepted
  have hsame : ∀ pair, pair ∈ again ↔ pair ∈ normalized := by
    intro pair
    constructor
    · intro hpair
      obtain ⟨raw, hraw, hok⟩ := mem_of_forall₂ hagain hpair
      obtain ⟨found, hfound, hother⟩ := mem_of_forall₂ hall.flip ((hrecipients raw).mp hraw)
      rw [Except.ok.inj (hok.symm.trans hother)]
      exact hfound
    · intro hpair
      obtain ⟨raw, hraw, hok⟩ := mem_of_forall₂ hall hpair
      obtain ⟨found, hfound, hother⟩ := mem_of_forall₂ hagain.flip ((hrecipients raw).mpr hraw)
      rw [Except.ok.inj (hok.symm.trans hother)]
      exact hfound
  have hpositive : ∀ {α : Type} {left right : List α},
      (∀ value, value ∈ left ↔ value ∈ right) → 0 < right.length → 0 < left.length := by
    intro α left right hmembers hright
    obtain ⟨value, hvalue⟩ := List.exists_mem_of_length_pos hright
    exact List.length_pos_of_mem ((hmembers value).mpr hvalue)
  refine normalizeQueueRegistration_ok_iff.mpr ⟨hid ▸ hvalid, hprint ▸ hvalidPrint,
      ⟨hpositive hrecipients hsome.1, hcount⟩,
      ⟨hpositive hsources hsomeSources.1, hsourceCount⟩, ?_, sender, again,
      hsender ▸ hnormal, hagain, ?_⟩
  · intro source hsource
    exact hvalidSources source ((hsources source).mp hsource)
  · have hfirst : canonicalRecipients (again.map Prod.fst) =
        canonicalRecipients (normalized.map Prod.fst) := by
      rw [canonicalRecipients_eq_iff]
      intro recipient
      simp only [List.mem_map, hsame]
    have hsecond : canonicalSources other.sources = canonicalSources input.sources := by
      apply (canonicalSources_eq_iff _ hvalidSources).mpr hsources
      intro source hsource
      exact hvalidSources source ((hsources source).mp hsource)
    rw [hid, hprint, hfirst, hsecond]

/-- The recipients of the record are the canonical forms of those given. -/
theorem Normalized.mem_recipients (hrecord : Normalized p input record) {recipient : Text} :
    recipient ∈ record.recipients ↔ ∃ raw ∈ input.recipients, ∃ domain,
      p.normalizeQueueRecipient raw = .ok (recipient, domain) := by
  obtain ⟨normalized, hall, heq⟩ := hrecord.recipients
  rw [heq, mem_canonicalRecipients, List.mem_map]
  constructor
  · rintro ⟨⟨canonical, domain⟩, hpair, rfl⟩
    obtain ⟨raw, hraw, hnormal⟩ := mem_of_forall₂ hall hpair
    exact ⟨raw, hraw, domain, hnormal⟩
  · rintro ⟨raw, hraw, domain, hnormal⟩
    obtain ⟨pair, hpair, hsame⟩ := mem_of_forall₂ hall.flip hraw
    rw [hnormal] at hsame
    cases hsame
    exact ⟨_, hpair, rfl⟩

theorem Normalized.mem_sources (hrecord : Normalized p input record)
    {source : QueueSource} : source ∈ record.sources ↔ source ∈ input.sources := by
  rw [hrecord.sources, mem_canonicalSources hrecord.validSources]

theorem Normalized.length_recipients (hrecord : Normalized p input record) :
    0 < record.recipients.length ∧ record.recipients.length ≤ maxQueueRecipients := by
  obtain ⟨normalized, hall, heq⟩ := hrecord.recipients
  have hlength := hall.length_eq
  have hcount := hrecord.recipientCount
  constructor
  · obtain ⟨raw, hraw⟩ := List.exists_mem_of_length_pos hcount.1
    obtain ⟨⟨recipient, domain⟩, _, hok⟩ := mem_of_forall₂ hall.flip hraw
    exact List.length_pos_of_mem (hrecord.mem_recipients.mpr ⟨raw, hraw, domain, hok⟩)
  · rw [heq, canonicalRecipients, (Collation.sortBy_perm _ _ _).length_eq]
    refine (length_distinctBy_le _).trans ?_
    rw [List.length_map, ← hlength]
    exact hcount.2

theorem Normalized.length_sources (hrecord : Normalized p input record) :
    0 < record.sources.length ∧ record.sources.length ≤ maxQueueSources := by
  have hcount := hrecord.sourceCount
  constructor
  · obtain ⟨source, hsource⟩ := List.exists_mem_of_length_pos hcount.1
    exact List.length_pos_of_mem (hrecord.mem_sources.mpr hsource)
  · rw [hrecord.sources, canonicalSources, (Collation.sortBy_perm _ _ _).length_eq]
    exact (length_distinctBy_le _).trans hcount.2

/-- Canonical addresses are short, because the DNS limits their domains. -/
theorem length_canonical_lt (hp : p.Lookup) {raw canonical domain : Text}
    (hraw : p.normalizeQueueRecipient raw = .ok (canonical, domain)) :
    canonical.length < 2 ^ 64 := by
  obtain ⟨before, after, henvelope, rfl⟩ := Platform.normalizeQueueRecipient_ok_iff.mp hraw
  have hdomain := hp.length_le henvelope.normalized
  have hbounded := henvelope.bounded
  simp only [Platform.maxEnvelopeRecipientBytes, List.length_append, List.length_cons] at hbounded ⊢
  omega

theorem Normalized.recipients_frameable (hrecord : Normalized p input record)
    (hp : p.Lookup) : Frameable record.recipients := by
  intro recipient hrecipient
  obtain ⟨raw, _, domain, hraw⟩ := hrecord.mem_recipients.mp hrecipient
  exact length_canonical_lt hp hraw

theorem length_text_lt (hkind : validSourceKind kind = true) : kind.text.length < 2 ^ 64 := by
  cases kind with
  | other raw => cases hkind
  | _ => decide

theorem sourceFrames_frameable {sources : List QueueSource}
    (hsources : ∀ source ∈ sources, source.valid = true) : Frameable (sourceFrames sources) := by
  intro value hvalue
  obtain ⟨source, hsource, hmem⟩ := List.mem_flatMap.mp hvalue
  have hvalid := hsources source hsource
  simp only [QueueSource.valid, validQueueObjectID, Bool.and_eq_true, decide_eq_true_eq] at hvalid
  have hbound : source.objectID.length ≤ 320 := hvalid.2.1.1.1.2
  simp only [List.mem_cons, List.not_mem_nil, or_false] at hmem
  rcases hmem with rfl | rfl
  · exact length_text_lt hvalid.1
  · omega

/-- Distinct lists of sources have distinct transcripts. -/
theorem frames_sourceFrames_injective {left right : List QueueSource}
    (hleft : ∀ source ∈ left, source.valid = true) (hright : ∀ source ∈ right, source.valid = true)
    (heq : frames (sourceFrames left) = frames (sourceFrames right)) : left = right := by
  have hframes := frames_injective (sourceFrames_frameable hleft)
    (sourceFrames_frameable hright) heq
  have hpairs : left.map (fun source => [source.kind.text, source.objectID]) =
      right.map (fun source => [source.kind.text, source.objectID]) :=
    groups_injective (by decide : 0 < 2) (by simp) (by simp)
      (by simpa only [sourceFrames, List.flatMap] using hframes)
  apply map_injective_on _ hpairs
  intro first hfirst second hsecond hpair
  simp only [List.cons.injEq, and_true] at hpair
  exact QueueSource.sortKey_injective (kind_valid_of_mem hleft hfirst)
    (kind_valid_of_mem hright hsecond) (Prod.ext hpair.1 hpair.2)

/-- The transcripts that are hashed for a record. -/
def QueueRecord.transcripts (record : QueueRecord) : Set Text :=
  {frames record.recipients, frames (sourceFrames record.sources)}

/-- Two accepted registrations have the same identity exactly when their queue
ID, fingerprint and canonical sender agree and their recipients and sources
are equal as sets. -/
theorem sameQueueIdentity_iff (hp : p.Lookup) {other : QueueRegistration} {second : QueueRecord}
    (hrecord : Normalized p input record) (hsecond : Normalized p other second)
    (hsha : Set.InjOn sum256 (record.transcripts ∪ second.transcripts)) :
    sameQueueIdentity record second = true ↔ input.queueID = other.queueID ∧
        input.arrivalFingerprint = other.arrivalFingerprint ∧
        record.envelopeSender = second.envelopeSender ∧
        (∀ recipient, recipient ∈ record.recipients ↔ recipient ∈ second.recipients) ∧
        ∀ source, source ∈ input.sources ↔ source ∈ other.sources := by
  have hrecipients : record.recipientSetDigest = second.recipientSetDigest ↔
      ∀ recipient, recipient ∈ record.recipients ↔ recipient ∈ second.recipients := by
    rw [hrecord.recipientDigest, hsecond.recipientDigest]
    constructor
    · intro hdigest recipient
      have hframes := sumHex_injective hsha (by simp [QueueRecord.transcripts])
        (by simp [QueueRecord.transcripts]) hdigest
      rw [frames_injective (hrecord.recipients_frameable hp)
        (hsecond.recipients_frameable hp) hframes]
    · intro hsame
      obtain ⟨left, _, hleft⟩ := hrecord.recipients
      obtain ⟨right, _, hright⟩ := hsecond.recipients
      rw [hleft, hright] at hsame ⊢
      simp only [mem_canonicalRecipients] at hsame
      rw [canonicalRecipients_eq_iff.mpr hsame]
  have hsources : record.sourceSetDigest = second.sourceSetDigest ↔
      ∀ source, source ∈ input.sources ↔ source ∈ other.sources := by
    rw [hrecord.sourceDigest, hsecond.sourceDigest,
      ← canonicalSources_eq_iff hrecord.validSources hsecond.validSources,
      ← hrecord.sources, ← hsecond.sources]
    constructor
    · intro hdigest
      have hframes := sumHex_injective hsha (by simp [QueueRecord.transcripts])
        (by simp [QueueRecord.transcripts]) hdigest
      apply frames_sourceFrames_injective _ _ hframes
      · intro source hsource
        exact hrecord.validSources source (hrecord.mem_sources.mp hsource)
      · intro source hsource
        exact hsecond.validSources source (hsecond.mem_sources.mp hsource)
    · intro hsame
      rw [hsame]
  simp only [sameQueueIdentity, Bool.and_eq_true, beq_iff_eq, hrecipients,
    hsources, hrecord.queueID, hsecond.queueID, hrecord.fingerprint, hsecond.fingerprint, and_assoc]

end GotthMail
