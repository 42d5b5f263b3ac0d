/-
The boundary to Postfix, on the host itself and through the helper.  Locally the
queue listing is parsed and canonicalised; through the helper the result crosses
HTTP as a JSON document that the other side checks once more.
-/
import GotthMail.System

namespace GotthMail

open Bytes Framing Sha256 Relational

variable {World : Type} {p : Platform} {queueID : Text} {metadata : QueueMetadata}

structure PostqueueEntry where
  queueName : Text
  queueID : Text
  arrivalTime : Int
  messageSize : Int
  sender : Text
  recipients : List Text
deriving DecidableEq

/-- What `encoding/json` reads: an entry of the queue listing, the selector of a
request and the metadata of a response. -/
structure Codec where
  decodeEntry : Text → Option PostqueueEntry
  decodeSelector : Text → Option Text
  decodeMetadata : Text → Option QueueMetadata

def encodeSelector (queueID : Text) : Text :=
  ascii "\x7b\"queue_id\":" ++ Json.quote queueID ++ ascii "\x7d"

/-- The metadata as the encoder writes it, with its final newline. -/
def encodeMetadata (metadata : QueueMetadata) : Text :=
  ascii "\x7b\"queue_id\":" ++ Json.quote metadata.queueID ++
    ascii ",\"arrival_fingerprint\":" ++ Json.quote metadata.arrivalFingerprint ++
    ascii ",\"envelope_sender\":" ++ Json.quote metadata.envelopeSender ++
    ascii ",\"recipients\":" ++ Json.array (metadata.recipients.map Json.quote) ++
    ascii ",\"held\":" ++ ascii (if metadata.held then "true" else "false") ++ ascii "\x7d\n"

def maxPostfixOutputBytes : Int := 67108864

def maxPostqueueJSONLineBytes : Nat := 4194304

def postfixNullSenderDisplay : Text := ascii "MAILER-DAEMON"

namespace Platform

variable (p : Platform)

/-- The SMTP null reverse path for the senders that stand for it. -/
def normalizePostqueueSender (sender : Text) : Except Error Text :=
  if sender = [] ∨ sender = postfixNullSenderDisplay then .ok (ascii "<>")
  else p.normalizeQueueSender sender

def canonicalQueueRecipients (recipients : List Text) :
    Except Error (List Text) := do
  check (decide (0 < recipients.length ∧ recipients.length ≤ maxQueueRecipients))
    "Postfix queue recipient limit violated"
  let normalized ← recipients.mapM p.normalizeQueueRecipient
  return canonicalRecipients (normalized.map Prod.fst)

/-- Bind the instance, the queue file and its canonical envelope. -/
def queueArrivalFingerprint (instanceID queueID : Text)
    (arrivalTime messageSize : Int) (sender : Text) (recipients : List Text) :
    Except Error Text :=
  match p.normalizeDomain instanceID with
  | .error _ => .error (.text "invalid Postfix arrival identity")
  | .ok host => do
      check (validLongQueueID queueID && decide (0 ≤ arrivalTime) &&
        decide (0 ≤ messageSize)) "invalid Postfix arrival identity"
      let canonicalSender ← p.normalizePostqueueSender sender
      let canonical ← p.canonicalQueueRecipients recipients
      return digestStrings (ascii "gotth-mail/postfix-arrival/v1" :: host ::
        queueID :: decimal arrivalTime.toNat :: decimal messageSize.toNat ::
        canonicalSender :: canonical)

/-- Whether an entry is held, by the name of its queue. -/
def heldQueue (queueName : Text) : Option Bool :=
  if queueName ∈ [ascii "incoming", ascii "active", ascii "deferred"] then
    some false
  else if queueName = ascii "hold" then some true
  else none

def queueMetadataFromEntry (host : Text) (entry : PostqueueEntry) :
    Except Error QueueMetadata := do
  check (validLongQueueID entry.queueID && decide (0 ≤ entry.arrivalTime) &&
    decide (0 ≤ entry.messageSize)) "invalid Postfix queue identity"
  let held ← require (heldQueue entry.queueName) "unsupported Postfix queue state"
  let sender ← p.normalizePostqueueSender entry.sender
  let recipients ← p.canonicalQueueRecipients entry.recipients
  let fingerprint ← p.queueArrivalFingerprint host entry.queueID
    entry.arrivalTime entry.messageSize sender recipients
  return ⟨entry.queueID, fingerprint, sender, recipients, held⟩

/-- One line of the listing: blank lines and other queue files are passed over,
and a second observation of the file has to agree with the first. -/
def inspectLine (codec : Codec) (host queueID : Text) (found : Option QueueMetadata) (line : Text) :
    Except Error (Option QueueMetadata) :=
  if trimSpace line = [] then .ok found
  else
    match codec.decodeEntry line with
    | none => .error (.text "invalid Postfix JSON queue output")
    | some entry =>
      if entry.queueID ≠ queueID then .ok found
      else do
        let metadata ← p.queueMetadataFromEntry host entry
        check (found.all (· == metadata)) "Postfix queue metadata changed during inspection"
        return some metadata

/-- The lines before the first one that does not fit into the buffer. -/
def scannedLines (output : Text) : List Text :=
  (linesOf output).takeWhile fun line => line.length < maxPostqueueJSONLineBytes

def inspectOutput (codec : Codec) (host queueID output : Text) :
    Except Error QueueMetadata := do
  let lines := (scannedLines output).map dropReturn
  let found ← lines.foldlM (p.inspectLine codec host queueID) none
  check ((linesOf output).all fun line => line.length < maxPostqueueJSONLineBytes)
    "Postfix queue inspection output exceeded line limit"
  require found "Postfix queue ID not found"

end Platform

/-- An absolute path without empty or dot components that ends in the base. -/
def validPostfixPath (path base : Text) : Bool :=
  match path.splitOn 47 with
  | [] :: components =>
    components.all (fun component => component != [] &&
      component != ascii "." && component != ascii "..") && components.getLast? == some base
  | _ => false

/-- The commands on the mail host.  Running one gives its output, or nothing
when it failed, and whatever it did to the host. -/
structure PostfixBoundary (World : Type) where
  runner : Text → List Text → Nat → World → Option Text × World
  postqueuePath : Text
  postsuperPath : Text
  instanceID : Text
  maxOutputBytes : Int

namespace PostfixBoundary

variable (b : PostfixBoundary World)

def outputLimit : Except Error Nat :=
  if b.maxOutputBytes = 0 then .ok maxPostfixOutputBytes.toNat
  else do
    check (decide (1 ≤ b.maxOutputBytes ∧
      b.maxOutputBytes ≤ maxPostfixOutputBytes)) "invalid Postfix output limit"
    return b.maxOutputBytes.toNat

/-- The instance and the output limit of an admissible inspection. -/
def inspection (p : Platform) (queueID : Text) : Except Error (Text × Nat) := do
  check (validLongQueueID queueID && validPostfixPath b.postqueuePath (ascii "postqueue"))
    "invalid Postfix queue inspection request"
  let host ← require (p.normalizeDomain b.instanceID).toOption "invalid Postfix instance identity"
  let limit ← b.outputLimit
  return (host, limit)

def inspect (p : Platform) (codec : Codec) (queueID : Text) (world : World) :
    Except Error QueueMetadata × World :=
  match b.inspection p queueID with
  | .error reason => (.error reason, world)
  | .ok (host, limit) =>
    match b.runner b.postqueuePath [ascii "-j"] limit world with
    | (none, next) => (.error (.text "Postfix queue inspection failed"), next)
    | (some output, next) =>
      if limit < output.length then
        (.error (.text "Postfix queue inspection output exceeded limit"), next)
      else (p.inspectOutput codec host queueID output, next)

/-- Run one documented operation on a whole message. -/
def postsuper (flag : Text) (invalid failed : String) (queueID : Text)
    (world : World) : Except Error Unit × World :=
  if validLongQueueID queueID && validPostfixPath b.postsuperPath (ascii "postsuper") then
    match b.outputLimit with
    | .error reason => (.error reason, world)
    | .ok limit =>
      match b.runner b.postsuperPath [flag, queueID] limit world with
      | (none, next) => (.error (.text failed), next)
      | (some _, next) => (.ok (), next)
  else (.error (.text invalid), world)

def hold : Text → World → Except Error Unit × World :=
  b.postsuper (ascii "-h") "invalid Postfix hold request" "Postfix hold helper failed"

def release : Text → World → Except Error Unit × World :=
  b.postsuper (ascii "-H") "invalid Postfix release request" "Postfix release helper failed"

end PostfixBoundary

inductive Endpoint where
  | inspect
  | hold
  | release
deriving DecidableEq, Repr

structure HelperRequest where
  method : Text
  endpoint : Endpoint
  authorization : Text
  body : Text

structure HelperResponse where
  status : Nat
  body : Text

def validPostfixHelperToken (token : Text) : Bool :=
  decide (32 ≤ token.length ∧ token.length ≤ 4096) && trimSpace token == token

/-- The helper keeps only the digests of its two secrets. -/
structure Helper where
  tokenHash : Text
  releaseTokenHash : Text

def newHelper (token releaseToken : Text) : Except Error Helper := do
  check (validPostfixHelperToken token && validPostfixHelperToken releaseToken &&
    token != releaseToken) "invalid Postfix helper configuration"
  return ⟨sum256 token, sum256 releaseToken⟩

def bearer : Text := ascii "Bearer "

namespace Helper

variable (h : Helper)

/-- Authenticate a request and read its selector, or refuse with a status. -/
def requestWithHash (codec : Codec) (request : HelperRequest)
    (tokenHash : Text) : Except Nat Text :=
  if request.method ≠ ascii "POST" then .error 405
  else if ¬ bearer <+: request.authorization ∨
      bearer.length + 4096 < request.authorization.length then .error 401
  else if sum256 (request.authorization.drop bearer.length) ≠ tokenHash then
    .error 401
  else if 8192 < request.body.length then .error 400
  else
    match codec.decodeSelector request.body with
    | none => .error 400
    | some queueID => if queueID = [] then .error 400 else .ok queueID

/-- The answer to an operation that returns nothing. -/
def emptied {World : Type} (failed : String) : Except Error Unit × World → HelperResponse × World
  | (.error _, next) => (⟨409, ascii failed⟩, next)
  | (.ok (), next) => (⟨204, []⟩, next)

/-- The answer to an admitted request. -/
def serve {World : Type} (p : Platform) (codec : Codec)
    (b : PostfixBoundary World) (queueID : Text) (world : World) : Endpoint → HelperResponse × World
  | .inspect =>
    match b.inspect p codec queueID world with
    | (.error _, next) => (⟨409, ascii "queue inspection failed\n"⟩, next)
    | (.ok metadata, next) => (⟨200, encodeMetadata metadata⟩, next)
  | .hold => emptied "queue hold failed\n" (b.hold queueID world)
  | .release => emptied "queue release failed\n" (b.release queueID world)

def handler {World : Type} (p : Platform) (codec : Codec)
    (b : PostfixBoundary World) (request : HelperRequest) (world : World) :
    HelperResponse × World :=
  let tokenHash := if request.endpoint = .release then h.releaseTokenHash else h.tokenHash
  match requestWithHash codec request tokenHash with
  | .error status => (⟨status, []⟩, world)
  | .ok queueID => serve p codec b queueID world request.endpoint

end Helper

def maxPostfixHelperResponseBytes : Nat := 65536

/-- A registration that is only made to check the metadata. -/
def QueueMetadata.validationOnly (metadata : QueueMetadata) : QueueRegistration where
  queueID := metadata.queueID
  arrivalFingerprint := metadata.arrivalFingerprint
  envelopeSender := metadata.envelopeSender
  recipients := metadata.recipients
  sources := [⟨.systemSender, ascii "validation-only"⟩]

/-- The client of the helper, with its two credentials. -/
structure RemotePostfixBoundary where
  token : Text
  releaseToken : Text

def newRemotePostfixBoundaryWithRelease (token releaseToken : Text) :
    Except Error RemotePostfixBoundary := do
  check (validPostfixHelperToken releaseToken && releaseToken != token)
    "invalid Postfix release token"
  check (validPostfixHelperToken token) "invalid Postfix helper token"
  return ⟨token, releaseToken⟩

namespace RemotePostfixBoundary

variable (remote : RemotePostfixBoundary)

def credential (endpoint : Endpoint) : Text :=
  if endpoint = .release then remote.releaseToken else remote.token

/-- The request for a queue file. -/
def request (endpoint : Endpoint) (queueID : Text) :
    Except Error HelperRequest := do
  check (validLongQueueID queueID) "invalid Postfix helper request"
  check (endpoint != .release || validPostfixHelperToken remote.releaseToken)
    "Postfix release credential unavailable"
  return ⟨ascii "POST", endpoint, bearer ++ remote.credential endpoint, encodeSelector queueID⟩

/-- The body of a response that is short enough and successful. -/
def responseBody (response : HelperResponse) : Except Error Text := do
  check (decide (response.body.length ≤ maxPostfixHelperResponseBytes))
    "Postfix helper response invalid"
  check (decide (200 ≤ response.status ∧ response.status < 300)) "Postfix helper rejected request"
  return response.body

section Transport

variable (send : HelperRequest → World → HelperResponse × World)

def call (endpoint : Endpoint) (queueID : Text) (world : World) : Except Error Text × World :=
  match remote.request endpoint queueID with
  | .error reason => (.error reason, world)
  | .ok request =>
    (responseBody (send request world).1, (send request world).2)

/-- The metadata of a response, when it is canonical and about the file that was
asked for. -/
def checked (p : Platform) (codec : Codec) (queueID body : Text) :
    Except Error QueueMetadata := do
  let metadata ← require (codec.decodeMetadata body) "Postfix helper response invalid"
  let normalized ← require (p.normalizeQueueRegistration metadata.validationOnly).toOption
    "Postfix helper returned invalid queue metadata"
  check (normalized.queueID == queueID &&
      normalized.arrivalFingerprint == metadata.arrivalFingerprint &&
      normalized.envelopeSender == metadata.envelopeSender &&
      normalized.recipients == metadata.recipients)
    "Postfix helper returned invalid queue metadata"
  return metadata

def inspect (p : Platform) (codec : Codec) (queueID : Text) (world : World) :
    Except Error QueueMetadata × World :=
  let (body, next) := remote.call send .inspect queueID world
  (body >>= checked p codec queueID, next)

/-- An operation whose response has no body. -/
def mutate (endpoint : Endpoint) (queueID : Text) (world : World) : Except Error Unit × World :=
  let (body, next) := remote.call send endpoint queueID world
  (body >>= fun body => check (trimSpace body == [])
    "Postfix helper mutation response was not empty", next)

def hold : Text → World → Except Error Unit × World := remote.mutate send .hold

def release : Text → World → Except Error Unit × World := remote.mutate send .release

end Transport

end RemotePostfixBoundary

section Local

variable {codec : Codec} {host : Text} {entry : PostqueueEntry}

/-- Metadata that every check of a registration accepts as they are. -/
structure QueueMetadata.Canonical (p : Platform) (metadata : QueueMetadata) :
    Prop where
  validID : validLongQueueID metadata.queueID = true
  fingerprint : validLowerHexDigest metadata.arrivalFingerprint = true
  sender : p.normalizeQueueSender metadata.envelopeSender = .ok metadata.envelopeSender
  count : 0 < metadata.recipients.length ∧ metadata.recipients.length ≤ maxQueueRecipients
  recipients : ∀ recipient ∈ metadata.recipients,
    ∃ domain, p.normalizeQueueRecipient recipient = .ok (recipient, domain)
  ordered : canonicalRecipients metadata.recipients = metadata.recipients

variable {canonical recipients : List Text} {raw : Text}

theorem canonicalQueueRecipients_ok_iff :
    p.canonicalQueueRecipients recipients = .ok canonical ↔
      (0 < recipients.length ∧ recipients.length ≤ maxQueueRecipients) ∧ ∃ normalized, List.Forall₂
          (fun raw pair => p.normalizeQueueRecipient raw = .ok pair) recipients normalized ∧
            canonicalRecipients (normalized.map Prod.fst) = canonical := by
  simp only [Platform.canonicalQueueRecipients, bind_ok_iff, check_ok_iff,
    pure_ok_iff, decide_eq_true_eq, mapM_ok_iff_forall₂, exists_const]

theorem canonicalQueueRecipients_source {recipient : Text}
    (hcanonical : p.canonicalQueueRecipients recipients = .ok canonical)
    (hrecipient : recipient ∈ canonical) :
    ∃ raw domain, p.normalizeQueueRecipient raw = .ok (recipient, domain) := by
  obtain ⟨_, normalized, hall, rfl⟩ := canonicalQueueRecipients_ok_iff.mp hcanonical
  rw [mem_canonicalRecipients, List.mem_map] at hrecipient
  obtain ⟨⟨_, domain⟩, hpair, rfl⟩ := hrecipient
  obtain ⟨raw, _, hraw⟩ := mem_of_forall₂ hall hpair
  exact ⟨raw, domain, hraw⟩

/-- Recipients that are canonicalised twice are accepted as they are. -/
theorem canonicalQueueRecipients_again (hp : p.Lookup) {again : List Text}
    (hcanonical : p.canonicalQueueRecipients recipients = .ok canonical)
    (hagain : p.canonicalQueueRecipients canonical = .ok again) :
    ∀ recipient ∈ canonical,
      ∃ domain, p.normalizeQueueRecipient recipient = .ok (recipient, domain) := by
  intro recipient hrecipient
  obtain ⟨raw, domain, hraw⟩ := canonicalQueueRecipients_source hcanonical hrecipient
  obtain ⟨_, normalized, hall, _⟩ := canonicalQueueRecipients_ok_iff.mp hagain
  obtain ⟨pair, _, hpair⟩ := mem_of_forall₂ hall.flip hrecipient
  exact ⟨domain, hp.normalizeQueueRecipient_of_accepted hraw hpair⟩

theorem canonicalRecipients_idempotent (recipients : List Text) :
    canonicalRecipients (canonicalRecipients recipients) =
      canonicalRecipients recipients :=
  canonicalRecipients_eq_iff.mpr fun _ => mem_canonicalRecipients

theorem normalizeQueueSender_source {sender : Text}
    (hraw : p.normalizeQueueSender raw = .ok sender) (hsender : sender ≠ ascii "<>") :
    ∃ domain, p.normalizeQueueRecipient raw = .ok (sender, domain) := by
  unfold Platform.normalizeQueueSender at hraw
  split at hraw
  · next hnull =>
      cases hraw
      exact absurd hnull hsender
  · split at hraw
    · cases hraw
    · next address domain haddress =>
        cases hraw
        exact ⟨domain, haddress⟩

theorem atSign_mem_canonical {canonical domain : Text}
    (hraw : p.normalizeQueueRecipient raw = .ok (canonical, domain)) : atSign ∈ canonical := by
  obtain ⟨before, after, _, rfl⟩ := Platform.normalizeQueueRecipient_ok_iff.mp hraw
  exact List.mem_append_right before List.mem_cons_self

/-- A sender that is canonicalised twice is accepted as it is. -/
theorem normalizePostqueueSender_again (hp : p.Lookup) {sender again : Text}
    (hraw : p.normalizePostqueueSender raw = .ok sender)
    (hagain : p.normalizePostqueueSender sender = .ok again) :
    p.normalizeQueueSender sender = .ok sender := by
  unfold Platform.normalizePostqueueSender at hraw
  split at hraw
  · cases hraw
    exact if_pos rfl
  · refine hp.normalizeQueueSender_of_accepted hraw fun hsender => ?_
    obtain ⟨domain, haddress⟩ := normalizeQueueSender_source hraw hsender
    have hat := atSign_mem_canonical haddress
    unfold Platform.normalizePostqueueSender at hagain
    rw [if_neg] at hagain
    · by_cases hnull : again = ascii "<>"
      · subst hnull
        unfold Platform.normalizeQueueSender at hagain
        rw [if_neg hsender] at hagain
        split at hagain
        · cases hagain
        · next found => exact ⟨_, found⟩
      · obtain ⟨second, hsecond⟩ := normalizeQueueSender_source hagain hnull
        exact ⟨_, hsecond⟩
    · rintro (rfl | rfl)
      · cases hat
      · revert hat
        decide

theorem queueMetadataFromEntry_canonical (hp : p.Lookup)
    (hentry : p.queueMetadataFromEntry host entry = .ok metadata) :
    metadata.Canonical p ∧ metadata.queueID = entry.queueID := by
  simp only [Platform.queueMetadataFromEntry, bind_ok_iff, check_ok_iff,
    require_ok_iff, pure_ok_iff, Bool.and_eq_true] at hentry
  obtain ⟨_, ⟨⟨hid, _⟩, _⟩, held, _, sender, hsender, recipients, hrecipients,
    fingerprint, hfingerprint, rfl⟩ := hentry
  unfold Platform.queueArrivalFingerprint at hfingerprint
  split at hfingerprint
  · cases hfingerprint
  simp only [bind_ok_iff, check_ok_iff, pure_ok_iff] at hfingerprint
  obtain ⟨_, _, canonicalSender, hagain, again, hcanonical, rfl⟩ := hfingerprint
  obtain ⟨hcount, _⟩ := canonicalQueueRecipients_ok_iff.mp hcanonical
  obtain ⟨_, normalized, _, rfl⟩ := canonicalQueueRecipients_ok_iff.mp hrecipients
  exact ⟨{
    validID := hid
    fingerprint := validLowerHexDigest_sumHex _
    sender := normalizePostqueueSender_again hp hsender hagain
    count := hcount
    recipients := canonicalQueueRecipients_again hp hrecipients hcanonical
    ordered := canonicalRecipients_idempotent _ }, rfl⟩

/-- What a line leaves found is canonical and about the file asked for. -/
theorem inspectLine_canonical (hp : p.Lookup) {found next : Option QueueMetadata} {line : Text}
    (hline : p.inspectLine codec host queueID found line = .ok next)
    (hfound : ∀ metadata, found = some metadata →
      metadata.Canonical p ∧ metadata.queueID = queueID) :
    ∀ metadata, next = some metadata → metadata.Canonical p ∧ metadata.queueID = queueID := by
  unfold Platform.inspectLine at hline
  split at hline
  · cases hline
    exact hfound
  split at hline
  · cases hline
  split at hline
  · cases hline
    exact hfound
  next hid =>
  simp only [bind_ok_iff, check_ok_iff, pure_ok_iff] at hline
  obtain ⟨metadata, hentry, _, _, rfl⟩ := hline
  rintro _ ⟨⟩
  obtain ⟨hcanonical, hsame⟩ := queueMetadataFromEntry_canonical hp hentry
  exact ⟨hcanonical, hsame.trans (not_not.mp hid)⟩

theorem inspectLines_canonical (hp : p.Lookup) {found next : Option QueueMetadata}
    {lines : List Text} (hlines : lines.foldlM (p.inspectLine codec host queueID) found = .ok next)
    (hfound : ∀ metadata, found = some metadata →
      metadata.Canonical p ∧ metadata.queueID = queueID) :
    ∀ metadata, next = some metadata → metadata.Canonical p ∧ metadata.queueID = queueID := by
  induction lines generalizing found with
  | nil =>
    cases hlines
    exact hfound
  | cons line rest ih =>
    rw [List.foldlM_cons, bind_ok_iff] at hlines
    obtain ⟨between, hline, hrest⟩ := hlines
    exact ih hrest (inspectLine_canonical hp hline hfound)

theorem PostfixBoundary.inspect_canonical (hp : p.Lookup) {World : Type}
    {b : PostfixBoundary World} {world : World}
    (hinspect : (b.inspect p codec queueID world).1 = .ok metadata) :
    metadata.Canonical p ∧ metadata.queueID = queueID := by
  unfold PostfixBoundary.inspect at hinspect
  split at hinspect
  · cases hinspect
  split at hinspect
  · cases hinspect
  split at hinspect
  · cases hinspect
  simp only [Platform.inspectOutput, bind_ok_iff, check_ok_iff, require_ok_iff] at hinspect
  obtain ⟨found, hlines, _, _, rfl⟩ := hinspect
  exact inspectLines_canonical hp hlines (fun _ hnone => by cases hnone)
    metadata rfl

end Local

section Remote

variable {codec : Codec} {token releaseToken : Text} {helper : Helper}
  {remote : RemotePostfixBoundary}

theorem normalized_self {recipients : List Text} (hrecipients : ∀ recipient ∈ recipients,
      ∃ domain, p.normalizeQueueRecipient recipient = .ok (recipient, domain)) :
    ∃ normalized, List.Forall₂ (fun raw pair => p.normalizeQueueRecipient raw = .ok pair)
        recipients normalized ∧ normalized.map Prod.fst = recipients := by
  induction recipients with
  | nil => exact ⟨[], .nil, rfl⟩
  | cons recipient rest ih =>
    obtain ⟨domain, hrecipient⟩ := hrecipients recipient List.mem_cons_self
    obtain ⟨normalized, hall, hsame⟩ := ih fun other hother =>
      hrecipients other (List.mem_cons_of_mem recipient hother)
    exact ⟨(recipient, domain) :: normalized, .cons hrecipient hall, by rw [List.map_cons, hsame]⟩

theorem QueueMetadata.Canonical.checked (hcanonical : metadata.Canonical p)
    (hid : metadata.queueID = queueID) {body : Text}
    (hbody : codec.decodeMetadata body = some metadata) :
    RemotePostfixBoundary.checked p codec queueID body = .ok metadata := by
  obtain ⟨normalized, hall, hsame⟩ := normalized_self hcanonical.recipients
  have hsources : ∀ source ∈ metadata.validationOnly.sources, source.valid = true := by
    intro source hsource
    rw [List.mem_singleton.mp hsource]
    decide
  have hcount : 0 < metadata.validationOnly.sources.length ∧
      metadata.validationOnly.sources.length ≤ maxQueueSources := by
    simp [QueueMetadata.validationOnly, maxQueueSources]
  have hrecord : p.normalizeQueueRegistration metadata.validationOnly =
      .ok (pendingRecord metadata.queueID metadata.arrivalFingerprint
        metadata.envelopeSender (canonicalRecipients (normalized.map Prod.fst))
        (canonicalSources metadata.validationOnly.sources)) :=
    normalizeQueueRegistration_ok_iff.mpr
      ⟨hcanonical.validID, hcanonical.fingerprint, hcanonical.count, hcount,
        hsources, metadata.envelopeSender, normalized, hcanonical.sender, hall, rfl⟩
  unfold RemotePostfixBoundary.checked
  rw [bind_ok_iff]
  refine ⟨metadata, require_ok_iff.mpr hbody, ?_⟩
  rw [bind_ok_iff]
  refine ⟨_, require_ok_iff.mpr (congrArg Except.toOption hrecord), ?_⟩
  simp only [bind_ok_iff, check_ok_iff, pure_ok_iff, pendingRecord, hid, hsame,
    hcanonical.ordered, beq_self_eq_true, Bool.and_self, and_self, exists_const]

theorem isPlain_of_queueID (hid : validLongQueueID queueID = true) :
    ∀ byte ∈ queueID, Json.isPlain byte = true := by
  have halphabet : ∀ byte ∈ queueIDAlphabet, Json.isPlain byte = true :=
    List.all_eq_true.mp (by decide)
  simp only [validLongQueueID, Bool.and_eq_true, List.all_eq_true] at hid
  exact fun byte hbyte => halphabet byte (List.elem_iff.mp (hid.1.2 byte hbyte))

theorem length_encodeSelector (hid : validLongQueueID queueID = true) :
    (encodeSelector queueID).length ≤ 8192 := by
  have hlength : queueID.length ≤ maxPostfixQueueIDBytes := by
    simp only [validLongQueueID, Bool.and_eq_true, decide_eq_true_eq] at hid
    exact hid.1.1.2
  rw [encodeSelector, Json.quote_of_plain (isPlain_of_queueID hid)]
  simp only [maxPostfixQueueIDBytes] at hlength
  simp [ascii]
  omega

/-- The helper admits what the client sends with the same secrets. -/
theorem handler_request {World : Type} {b : PostfixBoundary World} {endpoint : Endpoint}
    (hhelper : newHelper token releaseToken = .ok helper)
    (hremote : newRemotePostfixBoundaryWithRelease token releaseToken = .ok remote)
    (hid : validLongQueueID queueID = true)
    (hselector : codec.decodeSelector (encodeSelector queueID) = some queueID) (world : World) :
    remote.call (helper.handler p codec b) endpoint queueID world =
      (RemotePostfixBoundary.responseBody (Helper.serve p codec b queueID world endpoint).1,
        (Helper.serve p codec b queueID world endpoint).2) := by
  simp only [newHelper, newRemotePostfixBoundaryWithRelease, bind_ok_iff,
    check_ok_iff, pure_ok_iff, Bool.and_eq_true, exists_const] at hhelper hremote
  obtain ⟨⟨⟨htoken, hrelease⟩, _⟩, rfl⟩ := hhelper
  obtain ⟨_, _, rfl⟩ := hremote
  have hrequest : RemotePostfixBoundary.request ⟨token, releaseToken⟩ endpoint
      queueID = .ok ⟨ascii "POST", endpoint, bearer ++
        (if endpoint = .release then releaseToken else token), encodeSelector queueID⟩ := by
    simp only [RemotePostfixBoundary.request, RemotePostfixBoundary.credential,
      bind_ok_iff, check_ok_iff, pure_ok_iff, hid, hrelease, Bool.or_true, true_and, exists_const]
  have hsecret : validPostfixHelperToken
      (if endpoint = .release then releaseToken else token) = true := by
    split <;> assumption
  have hadmitted : Helper.requestWithHash codec ⟨ascii "POST", endpoint,
      bearer ++ (if endpoint = .release then releaseToken else token),
      encodeSelector queueID⟩ (if endpoint = .release then sum256 releaseToken
        else sum256 token) = .ok queueID := by
    simp only [validPostfixHelperToken, Bool.and_eq_true, decide_eq_true_eq] at hsecret
    have hsum : sum256 (if endpoint = .release then releaseToken else token) =
        (if endpoint = .release then sum256 releaseToken else sum256 token) :=
      apply_ite sum256 _ _ _
    have hnonempty : queueID ≠ [] := by
      rintro rfl
      cases hid
    unfold Helper.requestWithHash
    simp only [ne_eq, not_true_eq_false, if_false, List.prefix_append,
      List.drop_left, List.length_append, hsum, hselector, if_neg hnonempty,
      if_neg (Nat.not_lt.mpr (length_encodeSelector hid))]
    rw [if_neg]
    exact not_or.mpr ⟨not_false, by omega⟩
  unfold RemotePostfixBoundary.call
  rw [hrequest]
  simp only [Helper.handler, hadmitted]

/-- A mutation succeeds for the client exactly when it does for the helper. -/
theorem mutate_emptied {World : Type} (failed : String) (result : Except Error Unit × World) :
    ((RemotePostfixBoundary.responseBody (Helper.emptied failed result).1 >>=
        fun body => check (trimSpace body == [])
          "Postfix helper mutation response was not empty") = .ok () ↔
      result.1 = .ok ()) ∧ (Helper.emptied failed result).2 = result.2 := by
  obtain ⟨_ | _, next⟩ := result
  · simp [Helper.emptied, RemotePostfixBoundary.responseBody]
  · exact ⟨iff_of_true (bind_ok_iff.mpr ⟨[], rfl, rfl⟩) rfl, rfl⟩

variable (b : PostfixBoundary World) (world : World)
  (hhelper : newHelper token releaseToken = .ok helper)
  (hremote : newRemotePostfixBoundaryWithRelease token releaseToken = .ok remote)
  (hid : validLongQueueID queueID = true)
  (hselector : codec.decodeSelector (encodeSelector queueID) = some queueID)

include hhelper hremote hid hselector

/-- Holding through the helper is holding. -/
theorem remote_hold :
    ((remote.hold (helper.handler p codec b) queueID world).1 = .ok () ↔
        (b.hold queueID world).1 = .ok ()) ∧
      (remote.hold (helper.handler p codec b) queueID world).2 = (b.hold queueID world).2 := by
  simp only [RemotePostfixBoundary.hold, RemotePostfixBoundary.mutate,
    handler_request hhelper hremote hid hselector, Helper.serve]
  exact mutate_emptied _ _

theorem remote_release :
    ((remote.release (helper.handler p codec b) queueID world).1 = .ok () ↔
        (b.release queueID world).1 = .ok ()) ∧
      (remote.release (helper.handler p codec b) queueID world).2 =
        (b.release queueID world).2 := by
  simp only [RemotePostfixBoundary.release, RemotePostfixBoundary.mutate,
    handler_request hhelper hremote hid hselector, Helper.serve]
  exact mutate_emptied _ _

/-- What the client gets for the metadata of the host. -/
theorem remote_inspect (hp : p.Lookup)
    (hinspect : (b.inspect p codec queueID world).1 = .ok metadata)
    (hmetadata : codec.decodeMetadata (encodeMetadata metadata) = some metadata) :
    remote.inspect (helper.handler p codec b) p codec queueID world =
      (if (encodeMetadata metadata).length ≤ maxPostfixHelperResponseBytes then
          .ok metadata
        else .error (.text "Postfix helper response invalid"),
        (b.inspect p codec queueID world).2) := by
  obtain ⟨hcanonical, hsame⟩ := PostfixBoundary.inspect_canonical hp hinspect
  simp only [RemotePostfixBoundary.inspect,
    handler_request hhelper hremote hid hselector, Helper.serve]
  generalize b.inspect p codec queueID world = result at hinspect
  obtain ⟨result, next⟩ := result
  subst hinspect
  refine Prod.ext ?_ rfl
  dsimp only
  split
  · next hshort =>
      refine bind_ok_iff.mpr ⟨_, ?_, hcanonical.checked hsame hmetadata⟩
      simp only [RemotePostfixBoundary.responseBody, bind_ok_iff, check_ok_iff,
        pure_ok_iff, decide_eq_true_eq]
      exact ⟨(), hshort, (), by decide, trivial⟩
  · next hlong =>
      simp only [RemotePostfixBoundary.responseBody, hlong, decide_false]
      rfl

end Remote

/-- The client gets the metadata of the host exactly when they fit into the
response. -/
theorem remote_inspect_iff (p : Platform) (hp : p.Lookup) (codec : Codec)
    {World : Type} (b : PostfixBoundary World) (world : World)
    (token releaseToken : Text) (helper : Helper) (remote : RemotePostfixBoundary)
    (hhelper : newHelper token releaseToken = .ok helper)
    (hremote : newRemotePostfixBoundaryWithRelease token releaseToken = .ok remote)
    (queueID : Text) (metadata : QueueMetadata)
    (hinspect : (b.inspect p codec queueID world).1 = .ok metadata)
    (hselector : codec.decodeSelector (encodeSelector queueID) = some queueID)
    (hmetadata : codec.decodeMetadata (encodeMetadata metadata) = some metadata) :
    remote.inspect (helper.handler p codec b) p codec queueID world =
        b.inspect p codec queueID world ↔
      (encodeMetadata metadata).length ≤ maxPostfixHelperResponseBytes := by
  obtain ⟨hcanonical, hsame⟩ := PostfixBoundary.inspect_canonical hp hinspect
  rw [remote_inspect b world hhelper hremote (hsame ▸ hcanonical.validID)
    hselector hp hinspect hmetadata, Prod.ext_iff, hinspect]
  split
  · next hshort => exact iff_of_true ⟨rfl, rfl⟩ hshort
  · next hlong => exact iff_of_false (fun heq => nomatch heq.1) hlong

/-- An entry as the queue listing has it, without blanks. -/
def encodeEntry (entry : PostqueueEntry) : Text :=
  ascii "\x7b\"queue_name\":" ++ Json.quote entry.queueName ++
    ascii ",\"queue_id\":" ++ Json.quote entry.queueID ++
    ascii ",\"arrival_time\":" ++ decimal entry.arrivalTime.toNat ++
    ascii ",\"message_size\":" ++ decimal entry.messageSize.toNat ++
    ascii ",\"sender\":" ++ Json.quote entry.sender ++
    ascii ",\"recipients\":" ++ Json.array (entry.recipients.map fun recipient =>
      ascii "\x7b\"address\":" ++ Json.quote recipient ++ ascii "\x7d") ++
    ascii "\x7d"

/-- The queue file of a message to many. -/
def crowdID : Text := ascii "3bQzXk5Wn4z1v"

def crowdAddress (number : Nat) : Text :=
  encodeHex [UInt8.ofNat (number / 256), UInt8.ofNat number] ++ ascii "@example.test"

def crowd (count : Nat) : List Text := (List.range count).map crowdAddress

def crowdEntry (count : Nat) : PostqueueEntry where
  queueName := ascii "active"
  queueID := crowdID
  arrivalTime := 1
  messageSize := 1
  sender := []
  recipients := crowd count

def crowdMetadata (count : Nat) : QueueMetadata where
  queueID := crowdID
  arrivalFingerprint := digestStrings
    (ascii "gotth-mail/postfix-arrival/v1" :: ascii "mx.example.test" ::
      crowdID :: decimal 1 :: decimal 1 :: ascii "<>" :: canonicalRecipients (crowd count))
  envelopeSender := ascii "<>"
  recipients := canonicalRecipients (crowd count)
  held := false

/-- The decoder on the three documents that the exchange needs. -/
def crowdCodec (count : Nat) : Codec where
  decodeEntry line :=
    if line = encodeEntry (crowdEntry count) then some (crowdEntry count) else none
  decodeSelector body :=
    if body = encodeSelector crowdID then
      some crowdID
    else none
  decodeMetadata body :=
    if body = encodeMetadata (crowdMetadata count) then some (crowdMetadata count)
    else none

/-- A host with one message in its queue. -/
def crowdBoundary (count : Nat) : PostfixBoundary Unit where
  runner _ _ _ _ := (some (encodeEntry (crowdEntry count) ++ [10]), ())
  postqueuePath := ascii "/usr/sbin/postqueue"
  postsuperPath := ascii "/usr/sbin/postsuper"
  instanceID := ascii "mx.example.test"
  maxOutputBytes := 0

/-- What stands before the recipients of the entry. -/
def crowdHead : Text :=
  ascii "\x7b\"queue_name\":\"active\",\"queue_id\":\"3bQzXk5Wn4z1v\"," ++
    ascii "\"arrival_time\":1,\"message_size\":1,\"sender\":\"\",\"recipients\":"

/-- A long enough secret. -/
def crowdToken (digit : UInt8) : Text := List.replicate 32 digit

section Crowd

theorem crowd_evaluates :
    validLongQueueID crowdID = true ∧ asciiPlatform.normalizeDomain (ascii "mx.example.test") =
        .ok (ascii "mx.example.test") ∧
      validPostfixPath (ascii "/usr/sbin/postqueue") (ascii "postqueue") = true ∧
      (validPostfixHelperToken (crowdToken 97) = true ∧
        validPostfixHelperToken (crowdToken 98) = true ∧ (crowdToken 97 != crowdToken 98) = true ∧
        (crowdToken 98 != crowdToken 97) = true) ∧
      (Json.quote crowdID).length = 15 ∧
      ascii "\x7b\"queue_name\":" ++ Json.quote (ascii "active") ++
        ascii ",\"queue_id\":" ++ Json.quote crowdID ++
        ascii ",\"arrival_time\":" ++ decimal (1 : Int).toNat ++
        ascii ",\"message_size\":" ++ decimal (1 : Int).toNat ++
        ascii ",\"sender\":" ++ Json.quote [] ++ ascii ",\"recipients\":" =
          crowdHead := by
  decide +kernel

theorem crowdID_valid : validLongQueueID crowdID = true := crowd_evaluates.1

theorem crowdHost_normalized :
    asciiPlatform.normalizeDomain (ascii "mx.example.test") = .ok (ascii "mx.example.test") :=
  crowd_evaluates.2.1

theorem wellFormedDomain_of_plain {text : Text} (htext : text ≠ [])
    (hdots : dot ∉ text) : wellFormedDomain text = true := by
  have hcontains : containsDots text = false := by
    induction text using containsDots.induct with
    | case1 first second rest ih =>
      rw [containsDots, ih (List.cons_ne_nil _ _)
        (mt (List.mem_cons_of_mem first) hdots), Bool.or_false, Bool.and_eq_false_iff]
      left
      rw [beq_eq_false_iff_ne]
      rintro rfl
      exact hdots List.mem_cons_self
    | case2 text hshort =>
      rw [containsDots]
      exact hshort
  simp only [wellFormedDomain, hcontains, Bool.not_false, Bool.and_true,
    Bool.and_eq_true, bne_iff_ne]
  refine ⟨⟨htext, ?_⟩, ?_⟩
  · exact fun hhead => hdots (List.mem_of_mem_head? hhead)
  · exact fun hlast => hdots (List.mem_of_mem_getLast? hlast)

variable {byte : UInt8} {count : Nat}

theorem isLowerHex_not_mem {digits : Text} (hbyte : isLowerHex byte = false) :
    byte ∉ encodeHex digits := by
  intro hmem
  rw [isLowerHex_of_mem_encodeHex hmem] at hbyte
  cases hbyte

theorem isLowerHex_atom (hbyte : isLowerHex byte = true) : isAtomByte byte = true := by
  simp only [isLowerHex, Bool.or_eq_true, decide_eq_true_eq,
    UInt8.le_iff_toNat_le, UInt8.reduceToNat] at hbyte
  simp only [isAtomByte, Bool.or_eq_true, decide_eq_true_eq,
    UInt8.le_iff_toNat_le, UInt8.reduceToNat]
  omega

theorem isLowerHex_plain (hbyte : isLowerHex byte = true) : Json.isPlain byte = true := by
  simp only [isLowerHex, Bool.or_eq_true, decide_eq_true_eq,
    UInt8.le_iff_toNat_le, UInt8.reduceToNat] at hbyte
  rw [Json.isPlain_iff]
  omega

theorem length_quote_sumHex (text : Text) : (Json.quote (sumHex text)).length = 66 := by
  rw [Json.quote_of_plain fun byte hbyte =>
    isLowerHex_plain (isLowerHex_of_mem_sumHex hbyte), List.length_append,
    List.length_cons, length_sumHex]
  rfl

theorem crowdAddress_byte {number : Nat} (hbyte : byte ∈ crowdAddress number) :
    Json.isPlain byte = true ∧ isGraphic byte = true := by
  rcases List.mem_append.mp hbyte with hhex | hdomain
  · have hlower := isLowerHex_of_mem_encodeHex hhex
    exact ⟨isLowerHex_plain hlower, isLowerHex_graphic hlower⟩
  · have hplain : ∀ byte ∈ ascii "@example.test", Json.isPlain byte = true :=
      List.all_eq_true.mp (by decide)
    have hgraphic : ∀ byte ∈ ascii "@example.test", isGraphic byte = true :=
      List.all_eq_true.mp (by decide)
    exact ⟨hplain byte hdomain, hgraphic byte hdomain⟩

theorem length_crowdAddress (number : Nat) : (crowdAddress number).length = 17 := by
  rw [crowdAddress, List.length_append, length_encodeHex]
  rfl

theorem crowdAddress_injective {left right : Nat} (hleft : left < 65536)
    (hright : right < 65536) (heq : crowdAddress left = crowdAddress right) : left = right := by
  have hhex := encodeHex_injective (List.append_cancel_right heq)
  simp only [List.cons.injEq, and_true, ← UInt8.toNat_inj, UInt8.toNat_ofNat'] at hhex
  omega

theorem crowdAddress_accepted (number : Nat) :
    asciiPlatform.normalizeQueueRecipient (crowdAddress number) =
      .ok (crowdAddress number, ascii "example.test") := by
  let before := encodeHex [UInt8.ofNat (number / 256), UInt8.ofNat number]
  have hbefore : before ≠ [] := by
    rw [← List.length_pos_iff, length_encodeHex]
    exact Nat.succ_pos _
  have hparsed : asciiPlatform.parseAddress (crowdAddress number) =
      some ⟨[], crowdAddress number⟩ := by
    have hindex : lastIndexByte (crowdAddress number) atSign = some before.length :=
      lastIndexByte_append before (ascii "example.test") (by decide)
    have htake : (crowdAddress number).take before.length = before := List.take_left
    have hdrop : (crowdAddress number).drop (before.length + 1) = ascii "example.test" :=
      (List.drop_length_add_append 1).trans rfl
    have hlocal : wellFormedDomain before = true :=
      wellFormedDomain_of_plain hbefore (isLowerHex_not_mem (by decide))
    have hatoms : before.all isAtomByte = true :=
      List.all_eq_true.mpr fun byte hbyte => isLowerHex_atom (isLowerHex_of_mem_encodeHex hbyte)
    simp only [asciiPlatform, hindex, htake, hdrop, hlocal, hatoms, true_and]
    rw [if_pos (by decide)]
  refine Platform.normalizeQueueRecipient_ok_iff.mpr ⟨before, ascii "example.test", ?_, rfl⟩
  exact
    { trimmed := trimSpace_of_graphic fun byte hbyte => (crowdAddress_byte hbyte).2
      bounded := (length_crowdAddress number).trans_le (by decide)
      before_ne := hbefore
      after_ne := by decide
      after_plain := by decide
      normalized := by decide
      parsed := hparsed }

theorem nodup_crowd (hcount : count ≤ maxQueueRecipients) : (crowd count).Nodup := by
  refine List.Nodup.map_on ?_ List.nodup_range
  intro left hleft right hright heq
  rw [List.mem_range] at hleft hright
  simp only [maxQueueRecipients] at hcount
  exact crowdAddress_injective (by omega) (by omega) heq

theorem length_canonical_crowd (hcount : count ≤ maxQueueRecipients) :
    (canonicalRecipients (crowd count)).length = count := by
  have hperm : (canonicalRecipients (crowd count)).Perm (crowd count) := by
    rw [List.perm_ext_iff_of_nodup (canonicalRecipients_nodup _) (nodup_crowd hcount)]
    exact fun _ => mem_canonicalRecipients
  rw [hperm.length_eq, crowd, List.length_map, List.length_range]

/-- Every recipient takes twenty bytes of the response. -/
theorem length_crowdMetadata (hpositive : 0 < count) (hcount : count ≤ maxQueueRecipients) :
    (encodeMetadata (crowdMetadata count)).length = 20 * count + 179 := by
  have hwidth : ∀ value ∈ (canonicalRecipients (crowd count)).map Json.quote,
      value.length = 19 := by
    intro value hvalue
    obtain ⟨recipient, hrecipient, rfl⟩ := List.mem_map.mp hvalue
    rw [mem_canonicalRecipients] at hrecipient
    obtain ⟨number, _, rfl⟩ := List.mem_map.mp hrecipient
    rw [Json.quote_of_plain fun byte hbyte => (crowdAddress_byte hbyte).1,
      List.length_append, List.length_cons, length_crowdAddress]
    rfl
  have hlength := length_canonical_crowd hcount
  have hvalues : (canonicalRecipients (crowd count)).map Json.quote ≠ [] := by
    rw [← List.length_pos_iff, List.length_map, hlength]
    exact hpositive
  have harray := Json.length_array hvalues hwidth
  rw [List.length_map, hlength] at harray
  have hfingerprint : (Json.quote (crowdMetadata count).arrivalFingerprint).length = 66 := by
    simp only [crowdMetadata, digestStrings, length_quote_sumHex]
  have hid := crowd_evaluates.2.2.2.2.1
  have hsender : (Json.quote (ascii "<>")).length = 14 := by decide
  simp only [encodeMetadata, List.length_append, hfingerprint]
  simp only [crowdMetadata, harray, hid, hsender]
  simp [ascii]
  omega

theorem canonicalQueueRecipients_crowd {recipients : List Text}
    (hrecipients : ∀ recipient ∈ recipients, ∃ number, crowdAddress number = recipient)
    (hcount : 0 < recipients.length ∧ recipients.length ≤ maxQueueRecipients) :
    asciiPlatform.canonicalQueueRecipients recipients = .ok (canonicalRecipients recipients) := by
  obtain ⟨normalized, hall, hsame⟩ := normalized_self (p := asciiPlatform)
    fun recipient hrecipient => by
      obtain ⟨number, rfl⟩ := hrecipients recipient hrecipient
      exact ⟨_, crowdAddress_accepted number⟩
  exact canonicalQueueRecipients_ok_iff.mpr ⟨hcount, normalized, hall, by rw [hsame]⟩

theorem queueMetadata_crowd (hpositive : 0 < count) (hcount : count ≤ maxQueueRecipients) :
    asciiPlatform.queueMetadataFromEntry (ascii "mx.example.test")
      (crowdEntry count) = .ok (crowdMetadata count) := by
  have hmember : ∀ recipient ∈ crowd count, ∃ number, crowdAddress number = recipient := by
    intro recipient hrecipient
    obtain ⟨number, _, hnumber⟩ := List.mem_map.mp hrecipient
    exact ⟨number, hnumber⟩
  have hlength := length_canonical_crowd hcount
  have hfirst : asciiPlatform.canonicalQueueRecipients (crowd count) =
      .ok (canonicalRecipients (crowd count)) :=
    canonicalQueueRecipients_crowd hmember (by
      rw [crowd, List.length_map, List.length_range]
      exact ⟨hpositive, hcount⟩)
  have hsecond : asciiPlatform.canonicalQueueRecipients (canonicalRecipients (crowd count)) =
        .ok (canonicalRecipients (crowd count)) := by
    rw [canonicalQueueRecipients_crowd, canonicalRecipients_idempotent]
    · exact fun recipient hrecipient => hmember recipient (mem_canonicalRecipients.mp hrecipient)
    · rw [hlength]
      exact ⟨hpositive, hcount⟩
  have hfingerprint : asciiPlatform.queueArrivalFingerprint
      (ascii "mx.example.test") crowdID 1 1 (ascii "<>") (canonicalRecipients (crowd count)) =
        .ok (crowdMetadata count).arrivalFingerprint := by
    have hsender : asciiPlatform.normalizePostqueueSender (ascii "<>") =
        .ok (ascii "<>") := by decide
    simp only [Platform.queueArrivalFingerprint, crowdHost_normalized,
      bind_ok_iff, check_ok_iff, pure_ok_iff]
    exact ⟨(), by simp [crowdID_valid], _, hsender, _, hsecond, rfl⟩
  simp only [Platform.queueMetadataFromEntry, bind_ok_iff, check_ok_iff,
    require_ok_iff, pure_ok_iff, crowdEntry]
  exact ⟨(), by simp [crowdID_valid], false, by decide, ascii "<>", by decide, _,
    hfirst, _, hfingerprint, rfl⟩

def crowdItem (number : Nat) : Text :=
  ascii "\x7b\"address\":\"" ++ crowdAddress number ++ ascii "\"\x7d"

theorem encodeEntry_crowd (count : Nat) :
    encodeEntry (crowdEntry count) = crowdHead ++
      Json.array ((List.range count).map crowdItem) ++ ascii "\x7d" := by
  have hitem : ∀ number, ascii "\x7b\"address\":" ++
      Json.quote (crowdAddress number) ++ ascii "\x7d" = crowdItem number := by
    intro number
    rw [Json.quote_of_plain fun byte hbyte => (crowdAddress_byte hbyte).1]
    simp [crowdItem, ascii]
  have hhead := crowd_evaluates.2.2.2.2.2
  simp only [encodeEntry, crowdEntry, crowd, List.map_map, Function.comp_def, hitem, ← hhead]

theorem crowdEntry_byte (hbyte : byte ∈ encodeEntry (crowdEntry count)) :
    isGraphic byte = true := by
  have hhead : ∀ byte ∈ crowdHead, isGraphic byte = true := List.all_eq_true.mp (by decide)
  have hopen : ∀ byte ∈ ascii "\x7b\"address\":\"", isGraphic byte = true :=
    List.all_eq_true.mp (by decide)
  have hclose : ∀ byte ∈ ascii "\"\x7d", isGraphic byte = true := List.all_eq_true.mp (by decide)
  rw [encodeEntry_crowd, List.mem_append, List.mem_append] at hbyte
  rcases hbyte with (hbyte | hbyte) | hbyte
  · exact hhead byte hbyte
  · rcases List.mem_append.mp hbyte with hbyte | hbyte
    · rcases List.mem_cons.mp hbyte with rfl | hbyte
      · decide
      · rcases Json.mem_items hbyte with rfl | ⟨item, hitem, hbyte⟩
        · decide
        · obtain ⟨number, _, rfl⟩ := List.mem_map.mp hitem
          rw [crowdItem, List.mem_append, List.mem_append] at hbyte
          rcases hbyte with (hbyte | hbyte) | hbyte
          · exact hopen byte hbyte
          · exact (crowdAddress_byte hbyte).2
          · exact hclose byte hbyte
    · rw [List.mem_singleton.mp hbyte]
      decide
  · rw [List.mem_singleton.mp hbyte]
    decide

theorem length_crowdEntry (hpositive : 0 < count) (hcount : count ≤ maxQueueRecipients) :
    (encodeEntry (crowdEntry count)).length + 1 < maxPostqueueJSONLineBytes := by
  have hwidth : ∀ item ∈ (List.range count).map crowdItem, item.length = 31 := by
    intro item hitem
    obtain ⟨number, _, rfl⟩ := List.mem_map.mp hitem
    simp only [crowdItem, List.length_append, length_crowdAddress]
    rfl
  have hitems : (List.range count).map crowdItem ≠ [] := by
    rw [← List.length_pos_iff, List.length_map, List.length_range]
    exact hpositive
  have harray := Json.length_array hitems hwidth
  have hhead : crowdHead.length = 109 := by decide
  rw [List.length_map, List.length_range] at harray
  rw [encodeEntry_crowd, List.length_append, List.length_append, harray, hhead]
  simp only [maxQueueRecipients, maxPostqueueJSONLineBytes, ascii] at hcount ⊢
  simp
  omega

theorem crowd_inspect (hpositive : 0 < count) (hcount : count ≤ maxQueueRecipients) :
    (crowdBoundary count).inspect asciiPlatform (crowdCodec count)
      crowdID () = (.ok (crowdMetadata count), ()) := by
  have hlength := length_crowdEntry hpositive hcount
  have hnewline : 10 ∉ encodeEntry (crowdEntry count) := by
    intro hmem
    have := crowdEntry_byte hmem
    revert this
    decide
  have hlines : linesOf (encodeEntry (crowdEntry count) ++ [10]) =
      [encodeEntry (crowdEntry count)] := linesOf_append hnewline []
  have hreturn : dropReturn (encodeEntry (crowdEntry count)) = encodeEntry (crowdEntry count) := by
    rw [dropReturn, if_neg]
    intro hlast
    have := crowdEntry_byte (List.mem_of_mem_getLast? hlast)
    revert this
    decide
  have htrim : trimSpace (encodeEntry (crowdEntry count)) ≠ [] := by
    rw [trimSpace_of_graphic fun byte hbyte => crowdEntry_byte hbyte, encodeEntry_crowd]
    exact List.append_ne_nil_of_right_ne_nil _ (by decide)
  have hline : asciiPlatform.inspectLine (crowdCodec count) (ascii "mx.example.test") crowdID none
      (encodeEntry (crowdEntry count)) = .ok (some (crowdMetadata count)) := by
    unfold Platform.inspectLine
    rw [if_neg htrim]
    have hid : (crowdEntry count).queueID = crowdID := rfl
    simp only [crowdCodec, if_true, hid, ne_eq, not_true_eq_false, if_false,
      queueMetadata_crowd hpositive hcount]
    rfl
  have hinspection : (crowdBoundary count).inspection asciiPlatform
      crowdID = .ok (ascii "mx.example.test", 67108864) := by
    have hpath := crowd_evaluates.2.2.1
    simp only [PostfixBoundary.inspection, crowdBoundary, crowdID_valid, hpath,
      crowdHost_normalized]
    rfl
  have hshort : ¬ 67108864 < (encodeEntry (crowdEntry count) ++ [10]).length := by
    rw [List.length_append]
    simp only [maxPostqueueJSONLineBytes] at hlength
    exact Nat.not_lt.mpr (by simp only [List.length_singleton]; omega)
  have hfits : (encodeEntry (crowdEntry count)).length <
      maxPostqueueJSONLineBytes := by omega
  have houtput : asciiPlatform.inspectOutput (crowdCodec count) (ascii "mx.example.test") crowdID
      (encodeEntry (crowdEntry count) ++ [10]) = .ok (crowdMetadata count) := by
    simp only [Platform.inspectOutput, Platform.scannedLines, hlines,
      List.takeWhile_cons, List.takeWhile_nil, hfits, decide_true, if_true,
      List.map_cons, List.map_nil, hreturn, List.foldlM_cons, List.foldlM_nil,
      hline, List.all_cons, List.all_nil, Bool.and_self]
    rfl
  unfold PostfixBoundary.inspect
  rw [hinspection]
  simp only [crowdBoundary, if_neg hshort, houtput]

theorem crowdCodec_selector (count : Nat) :
    (crowdCodec count).decodeSelector (encodeSelector crowdID) =
      some crowdID := by
  simp only [crowdCodec, if_true]

theorem crowdCodec_metadata (count : Nat) :
    (crowdCodec count).decodeMetadata (encodeMetadata (crowdMetadata count)) =
      some (crowdMetadata count) := by
  simp only [crowdCodec, if_true]

end Crowd

theorem newHelper_crowd : newHelper (crowdToken 97) (crowdToken 98) =
    .ok ⟨sum256 (crowdToken 97), sum256 (crowdToken 98)⟩ := by
  obtain ⟨hfirst, hsecond, hdiffer, _⟩ := crowd_evaluates.2.2.2.1
  rw [newHelper, hfirst, hsecond, hdiffer]
  rfl

theorem newRemote_crowd :
    newRemotePostfixBoundaryWithRelease (crowdToken 97) (crowdToken 98) =
      .ok ⟨crowdToken 97, crowdToken 98⟩ := by
  obtain ⟨hfirst, hsecond, _, hdiffer⟩ := crowd_evaluates.2.2.2.1
  rw [newRemotePostfixBoundaryWithRelease, hfirst, hsecond, hdiffer]
  rfl

/-- The message as the client of the helper sees it. -/
def crowdInspected (count : Nat) : Except Error QueueMetadata × Unit :=
  RemotePostfixBoundary.inspect ⟨crowdToken 97, crowdToken 98⟩
    (Helper.handler ⟨sum256 (crowdToken 97), sum256 (crowdToken 98)⟩
      asciiPlatform (crowdCodec count) (crowdBoundary count))
    asciiPlatform (crowdCodec count) crowdID ()

theorem crowdInspected_eq {count : Nat} (hpositive : 0 < count)
    (hcount : count ≤ maxQueueRecipients) :
    crowdInspected count =
      (if 20 * count + 179 ≤ maxPostfixHelperResponseBytes then
          .ok (crowdMetadata count)
        else .error (.text "Postfix helper response invalid"), ()) := by
  have hinspect := crowd_inspect hpositive hcount
  rw [crowdInspected, remote_inspect _ _ newHelper_crowd newRemote_crowd
    crowdID_valid (crowdCodec_selector count) asciiPlatform_lookup
    (congrArg Prod.fst hinspect) (crowdCodec_metadata count), length_crowdMetadata hpositive hcount]

/-- Two recipients fit into the response. -/
theorem remote_inspect_two :
    crowdInspected 2 = (crowdBoundary 2).inspect asciiPlatform (crowdCodec 2) crowdID () := by
  have hinspect := crowd_inspect (show 0 < 2 by decide) (by decide)
  refine (remote_inspect_iff asciiPlatform asciiPlatform_lookup _ _ _
    (crowdToken 97) (crowdToken 98) _ _ newHelper_crowd newRemote_crowd _
    (crowdMetadata 2) (by rw [hinspect]) (crowdCodec_selector 2) (crowdCodec_metadata 2)).mpr ?_
  rw [length_crowdMetadata (by decide) (by decide)]
  decide

/-- As many recipients as a registration may have do not. -/
theorem remote_inspect_crowd :
    (crowdBoundary 10000).inspect asciiPlatform (crowdCodec 10000)
        crowdID () = (.ok (crowdMetadata 10000), ()) ∧
      crowdInspected 10000 = (.error (.text "Postfix helper response invalid"), ()) := by
  refine ⟨crowd_inspect (by decide) (by decide), ?_⟩
  rw [crowdInspected_eq (by decide) (by decide), if_neg (by decide)]

/-- Whether a command succeeded, and the host that it leaves. -/
def seen {World : Type} (result : Except Error Unit × World) : Bool × World :=
  (result.1.isOk, result.2)

theorem seen_congr {World : Type} {result other : Except Error Unit × World}
    (hsame : (result.1 = .ok () ↔ other.1 = .ok ()) ∧ result.2 = other.2) :
    seen result = seen other := by
  obtain ⟨_ | _, _⟩ := result <;> obtain ⟨_ | _, _⟩ := other <;>
    simp_all [seen, Except.isOk, Except.toBool]

/-- Holds and releases one after the other: which of them succeeded, and the host that
they leave. -/
def mutations {World : Type} (hold release : Text → World → Except Error Unit × World) :
    List (Bool × Text) → World → List Bool × World
  | [], world => ([], world)
  | (releases, queueID) :: rest, world =>
    let (succeeded, next) := seen ((if releases then release else hold) queueID world)
    let (others, last) := mutations hold release rest next
    (succeeded :: others, last)

section Session

variable {p : Platform} {codec : Codec} {World : Type} {b : PostfixBoundary World}
  {token releaseToken : Text} {helper : Helper} {remote : RemotePostfixBoundary}
  (hhelper : newHelper token releaseToken = .ok helper)
  (hremote : newRemotePostfixBoundaryWithRelease token releaseToken = .ok remote)

include hhelper hremote

theorem remote_step {queueID : Text} (releases : Bool) (world : World)
    (hselector : validLongQueueID queueID = true →
      codec.decodeSelector (encodeSelector queueID) = some queueID) :
    seen ((if releases then remote.release (helper.handler p codec b)
      else remote.hold (helper.handler p codec b)) queueID world) =
      seen ((if releases then b.release else b.hold) queueID world) := by
  by_cases hid : validLongQueueID queueID = true
  · cases releases with
    | false => exact seen_congr (remote_hold b world hhelper hremote hid (hselector hid))
    | true => exact seen_congr (remote_release b world hhelper hremote hid (hselector hid))
  · -- The client and the host refuse the identifier before they do anything.
    cases releases <;>
    · simp only [RemotePostfixBoundary.hold, RemotePostfixBoundary.release,
        RemotePostfixBoundary.mutate, RemotePostfixBoundary.call,
        RemotePostfixBoundary.request, PostfixBoundary.hold, PostfixBoundary.release,
        PostfixBoundary.postsuper, hid, Bool.false_eq_true, if_false, if_true]
      rfl

/-- A session of holds and releases through the helper is one on the host. -/
theorem remote_mutations (commands : List (Bool × Text))
    (hselector : ∀ command ∈ commands, validLongQueueID command.2 = true →
      codec.decodeSelector (encodeSelector command.2) = some command.2) (world : World) :
    mutations (remote.hold (helper.handler p codec b)) (remote.release (helper.handler p codec b))
        commands world = mutations b.hold b.release commands world := by
  induction commands generalizing world with
  | nil => rfl
  | cons command rest ih =>
    obtain ⟨hfirst, hrest⟩ := List.forall_mem_cons.mp hselector
    simp only [mutations, remote_step hhelper hremote command.1 world hfirst, ih hrest]

end Session

/-- A message is held and released, and a name that is none is refused. -/
theorem remote_mutations_crowd : ∃ helper remote,
    newHelper (crowdToken 97) (crowdToken 98) = .ok helper ∧
    newRemotePostfixBoundaryWithRelease (crowdToken 97) (crowdToken 98) = .ok remote ∧
    mutations (remote.hold (helper.handler asciiPlatform (crowdCodec 2) (crowdBoundary 2)))
      (remote.release (helper.handler asciiPlatform (crowdCodec 2) (crowdBoundary 2)))
      [(false, crowdID), (false, []), (true, crowdID)] () = ([true, false, true], ()) := by
  refine ⟨_, _, newHelper_crowd, newRemote_crowd,
    (remote_mutations newHelper_crowd newRemote_crowd _ ?_ ()).trans (by decide +kernel)⟩
  simp [crowdCodec_selector, validLongQueueID]

end GotthMail
