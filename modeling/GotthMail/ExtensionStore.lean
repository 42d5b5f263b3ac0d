/-
The tables of extension administration and the transactions that write them.  A
transaction is a function from the database to the database it commits, or to
the error that it returns.
-/
import GotthMail.Extensions
import GotthMail.Upserts

namespace GotthMail

open Bytes Framing Sha256 Ranges Relational Effect

variable {installs : Prop} {tests : Nat → Prop} {site : ExtensionSite} {now : Time}

inductive Lifecycle where
  | discovered
  | starting
  | ready
  | degraded
  | stopping
  | stopped
  | failed
deriving DecidableEq

/-- What an update keeps of the version that it replaces. -/
structure VersionSnapshot where
  artifactPin : Text
  manifestDigest : Text
  grantDigest : Text
  sessionDigest : Text
  capabilities : List Text
  interfaces : List Text
  secretSlots : List Text
  metadata : ExtensionMetadata
  configuration : List Member

/-- A row of the instances, or an instance as the program reads it: there the
defaults and the configuration are generic values. -/
structure Instance where
  instanceID : Text
  extensionID : Text
  repository : Text
  artifactPin : Text
  previousVersion : Option VersionSnapshot
  availableUpdate : Text
  manifestDigest : Text
  grantDigest : Text
  sessionDigest : Text
  capabilities : List Text
  interfaces : List Text
  secretSlots : List Text
  metadata : ExtensionMetadata
  configuration : List Member
  configurationRev : Nat
  lifecycle : Lifecycle
  healthCode : Text
  testedRevision : Option Nat
  enabled : Bool
  routed : Bool

structure SecretRow where
  instanceID : Text
  slot : Text
  value : Text
deriving DecidableEq

def SecretRow.place (row : SecretRow) : Text × Text := (row.instanceID, row.slot)

inductive PreviewOperation where
  | configure
  | update
  | deleteSecrets
  | uninstall
deriving DecidableEq

inductive PreviewPayload where
  | configuration (members : List Member)
  | update (input : UpdateInput)
  | nothing

def PreviewPayload.json : PreviewPayload → JsonValue
  | .configuration members => .object members
  | .update input => input.json
  | .nothing => .object []

structure PreviewRow where
  id : Text
  instanceID : Text
  operation : PreviewOperation
  actor : ActorRef
  baseRevision : Nat
  payload : PreviewPayload
  payloadSHA256 : Text
  secretBinding : Text
  confirmationDigest : Text
  createdAt : Time
  expiresAt : Time
  consumedAt : Option Time

/-- One instance for an extension, and only enabled instances are routed. -/
abbrev Instances := Constrained Instance Instance.instanceID fun rows =>
  decide (rows.map Instance.extensionID).Nodup && rows.all fun row => !row.routed || row.enabled

structure ExtensionDB where
  instances : Instances
  secrets : Table SecretRow SecretRow.place
  previews : Table PreviewRow PreviewRow.id

def ExtensionDB.empty : ExtensionDB := ⟨⟨.empty, by decide⟩, .empty, .empty⟩

namespace Instance

variable (row : Instance)

def snapshot : VersionSnapshot :=
  ⟨row.artifactPin, row.manifestDigest, row.grantDigest, row.sessionDigest,
    row.capabilities, row.interfaces, row.secretSlots, row.metadata, row.configuration⟩

/-- The artifact pin of the version before, empty when there was none. -/
def previousArtifact : Text := (row.previousVersion.map VersionSnapshot.artifactPin).getD []

def idle : Bool := !row.enabled && !row.routed

/-- A row whose contents have changed: the next revision, which is not tested. -/
def revised : Instance :=
  { row with
    configurationRev := row.configurationRev + 1
    testedRevision := none
    healthCode := ascii "extension.unknown" }

def configured (members : List Member) : Instance :=
  { row.revised with
    configuration := members
    lifecycle := .stopped }

/-- The row after an update of the instance that was read. -/
def updated (found : Instance) (input : UpdateInput) : Instance :=
  { row.revised with
    previousVersion := some found.snapshot
    availableUpdate := []
    artifactPin := input.artifactPin
    manifestDigest := input.manifestDigest
    grantDigest := input.grantDigest
    sessionDigest := input.sessionDigest
    capabilities := input.capabilities
    interfaces := input.interfaces
    secretSlots := input.secretSlots
    metadata := input.metadata
    lifecycle := .stopped }

def rolledBack (found : Instance) (previous : VersionSnapshot) : Instance :=
  { row.revised with
    artifactPin := previous.artifactPin
    previousVersion := some found.snapshot
    manifestDigest := previous.manifestDigest
    grantDigest := previous.grantDigest
    sessionDigest := previous.sessionDigest
    capabilities := previous.capabilities
    interfaces := previous.interfaces
    secretSlots := previous.secretSlots
    metadata := previous.metadata
    configuration := previous.configuration
    lifecycle := .stopped }

/-- The request that an update of an instance is validated as. -/
def updateRequest (input : UpdateInput) : InstallRequest where
  instanceID := row.instanceID
  extensionID := row.extensionID
  repository := row.repository
  artifactPin := input.artifactPin
  manifestDigest := input.manifestDigest
  grantDigest := input.grantDigest
  sessionDigest := input.sessionDigest
  capabilities := input.capabilities
  interfaces := input.interfaces
  secretSlots := input.secretSlots
  metadata := input.metadata
  availableUpdate := []
  correlationID := []

def requiredSecretsConfigured (configured : List Text) : Bool :=
  row.metadata.fields.all fun field => field.kind != .secret || !field.required ||
      row.secretSlots.elem field.name && configured.elem field.name

end Instance

/-- An identifier as its column of type uuid keeps it. -/
def uuidText (id : Text) : Text := toLower id

def InstallRequest.instance (request : InstallRequest) : Instance where
  instanceID := uuidText request.instanceID
  extensionID := request.extensionID
  repository := request.repository
  artifactPin := request.artifactPin
  previousVersion := none
  availableUpdate := request.availableUpdate
  manifestDigest := request.manifestDigest
  grantDigest := request.grantDigest
  sessionDigest := request.sessionDigest
  capabilities := request.capabilities
  interfaces := request.interfaces
  secretSlots := request.secretSlots
  metadata := request.metadata
  configuration := []
  configurationRev := 1
  lifecycle := .discovered
  healthCode := ascii "extension.unknown"
  testedRevision := none
  enabled := false
  routed := false

namespace ExtensionSite

variable (site : ExtensionSite)

def scanInstance (row : Instance) : Except ExtensionError Instance :=
  match site.decodeMetadata row.metadata, site.decodeConfiguration row.configuration with
  | some metadata, some configuration =>
    .ok { row with metadata := metadata, configuration := configuration }
  | _, _ => .error (.text "json")

/-- The instance under a stored identifier. -/
def locateInstance (db : ExtensionDB) (key : Text) : Except ExtensionError Instance :=
  match db.instances.find? key with
  | none => .error .notFound
  | some row => site.scanInstance row

def findInstance (db : ExtensionDB) (id : Text) : Except ExtensionError Instance :=
  site.locateInstance db (uuidText id)

end ExtensionSite

namespace ExtensionDB

variable (db : ExtensionDB)

def configuredSlots (id : Text) : List Text :=
  (db.secrets.rows.filter fun row => row.instanceID = id).map SecretRow.slot

def secretIn (id slot : Text) : Option Text := (db.secrets.find? (id, slot)).map SecretRow.value

def readSecrets (id : Text) (slots : List Text) : List (Text × Text) :=
  slots.filterMap fun slot => (db.secretIn id slot).map fun value => (slot, value)

/-- Update the row of an instance that meets a condition. -/
def revise (id : Text) (condition : Instance → Bool) (change : Instance → Instance)
    (hid : ∀ row, (change row).instanceID = row.instanceID) :
    Except ExtensionError ExtensionDB :=
  if (db.instances.matching id condition).length = 1 then
    match Constrained.accept (db.instances.update
        (fun row => row.instanceID = id && condition row) change hid) with
    | none => .error .sql
    | some instances => .ok { db with instances := instances }
  else .error .conflict

def putSecret (id slot value : Text) : ExtensionDB :=
  { db with
    secrets :=
      match (db.secrets.keep fun row => row.place ≠ (id, slot)).insert ⟨id, slot, value⟩ with
      | some secrets => secrets
      | none => db.secrets }

def putSecrets (id : Text) (secrets : Mapping Text Text) : ExtensionDB :=
  secrets.entries.foldl (fun db entry => db.putSecret id entry.1 entry.2) db

def deleteSecrets (id : Text) : ExtensionDB :=
  { db with secrets := db.secrets.keep fun row => row.instanceID ≠ id }

def consume (id : Text) (now : Time) : ExtensionDB :=
  { db with
    previews := db.previews.update (fun row => row.id = id && row.consumedAt.isNone)
      (fun row => { row with consumedAt := some now }) (fun _ => rfl) }

/-- Delete an instance, and with it its secrets and previews. -/
def deleteInstance (id : Text) : Except ExtensionError ExtensionDB :=
  match Constrained.accept (db.instances.keep fun row => row.instanceID ≠ id) with
  | none => .error .sql
  | some instances => .ok
      { instances := instances
        secrets := db.secrets.keep fun row => row.instanceID ≠ id
        previews := db.previews.keep fun row => row.instanceID ≠ id }

def insertInstance (row : Instance) : Except ExtensionError ExtensionDB :=
  match (db.instances.insert row).bind Constrained.accept with
  | none => .error .sql
  | some instances => .ok { db with instances := instances }

def insertPreview (row : PreviewRow) : Except ExtensionError ExtensionDB :=
  if db.instances.find? row.instanceID = none then .error .sql
  else
    match db.previews.insert row with
    | none => .error .sql
    | some previews => .ok { db with previews := previews }

end ExtensionDB

/-- What the caller of an application names: who acts, on which preview, with
which confirmation. -/
structure PreviewApproval where
  actor : ActorRef
  previewID : Text
  confirmation : Text

structure PreviewRequest where
  id : Text
  instanceID : Text
  operation : PreviewOperation
  actor : ActorRef
  baseRevision : Nat
  payload : PreviewPayload
  secrets : Mapping Text Text
  confirmation : Text

/-- Ten minutes in nanoseconds. -/
def previewTTL : Time := 600000000000

def loadPreview (now : Time) (db : ExtensionDB) (id : Text) :
    Except ExtensionError PreviewRow :=
  match db.previews.find? id with
  | none => .error .confirmation
  | some row =>
    if row.consumedAt.isSome ∨ row.expiresAt ≤ now then .error .confirmation
    else .ok row

namespace ExtensionSite

variable (site : ExtensionSite) (now : Time) (db : ExtensionDB)

def previewRow (request : PreviewRequest) : PreviewRow where
  id := request.id
  instanceID := uuidText request.instanceID
  operation := request.operation
  actor := request.actor
  baseRevision := request.baseRevision
  payload := request.payload
  payloadSHA256 := sumHex (marshal request.payload.json)
  secretBinding := site.secretBinding request.secrets
  confirmationDigest := site.confirmationDigest request.confirmation
  createdAt := now
  expiresAt := now + previewTTL
  consumedAt := none

def verifyPreview (row : PreviewRow) (operation : PreviewOperation)
    (approval : PreviewApproval) (secrets : Mapping Text Text) : Bool :=
  decide (row.operation = operation) && decide (row.actor = approval.actor) &&
    row.confirmationDigest == site.confirmationDigest approval.confirmation &&
    row.secretBinding == site.secretBinding secrets

/-- The preview and the instance under it, both locked for the transaction. -/
def admitPreview (operation : PreviewOperation) (approval : PreviewApproval)
    (secrets : Mapping Text Text) :
    Except ExtensionError (PreviewRow × Instance) := do
  let preview ← loadPreview now db approval.previewID
  demand (site.verifyPreview preview operation approval secrets) .confirmation
  let instance' ← site.locateInstance db preview.instanceID
  demand (decide (instance'.configurationRev = preview.baseRevision) && instance'.idle) .conflict
  return (preview, instance')

def applyConfigure (approval : PreviewApproval) (input : ConfigureInput) :
    Except ExtensionError ExtensionDB := do
  let (preview, found) ← site.admitPreview now db .configure approval input.secrets
  match site.validateConfiguration found.metadata input.configuration found.secretSlots with
  | .error _ => .error .confirmation
  | .ok configuration =>
    demand (sumHex configuration == preview.payloadSHA256) .confirmation
    validateSecrets input.secrets found.secretSlots
    let next ← (db.putSecrets found.instanceID input.secrets).revise
      found.instanceID (fun _ => true) (·.configured input.configuration) (fun _ => rfl)
    return next.consume preview.id now

/-- The previewed update as it is read back. -/
def updateOf : PreviewPayload → Option UpdateInput
  | .update input => (site.decodeMetadata input.metadata).map fun metadata =>
    { input with metadata := metadata }
  | _ => none

def applyUpdate (approval : PreviewApproval) : Except ExtensionError ExtensionDB := do
  let (preview, found) ← site.admitPreview now db .update approval ∅
  match site.updateOf preview.payload with
  | none => .error .confirmation
  | some input =>
    let _ ← site.validateInstall (found.updateRequest input)
    let next ← db.revise found.instanceID (fun _ => true) (·.updated found input) (fun _ => rfl)
    return next.consume preview.id now

def applyDeleteSecrets (approval : PreviewApproval) :
    Except ExtensionError ExtensionDB := do
  let (preview, found) ← site.admitPreview now db .deleteSecrets approval ∅
  let next ← (db.deleteSecrets found.instanceID).revise found.instanceID
    (fun _ => true) Instance.revised (fun _ => rfl)
  return next.consume preview.id now

def applyUninstall (approval : PreviewApproval) :
    Except ExtensionError ExtensionDB := do
  let (_, found) ← site.admitPreview now db .uninstall approval ∅
  demand (db.configuredSlots found.instanceID == []) .conflict
  db.deleteInstance found.instanceID

def rollbackConfirmation (found : Instance) : Text :=
  ascii "rollback " ++ found.extensionID ++ ascii " to " ++ found.previousArtifact

/-- The version before as it is read back. -/
def decodeSnapshot (version : VersionSnapshot) : Option VersionSnapshot := do
  let metadata ← site.decodeMetadata version.metadata
  let configuration ← site.decodeConfiguration version.configuration
  return { version with metadata := metadata, configuration := configuration }

def rollback (id confirmation : Text) : Except ExtensionError ExtensionDB := do
  let found ← site.findInstance db id
  demand (found.idle && found.previousArtifact != [] &&
    confirmation == rollbackConfirmation found) .confirmation
  match found.previousVersion.bind site.decodeSnapshot with
  | none => .error .conflict
  | some previous =>
    demand (validArtifact previous.artifactPin) .conflict
    match site.validateConfiguration previous.metadata previous.configuration
        previous.secretSlots with
    | .error _ => .error .conflict
    | .ok _ =>
      db.revise (uuidText id) (fun row => decide (row.configurationRev = found.configurationRev) &&
          row.idle)
        (·.rolledBack found previous) (fun _ => rfl)

def install (request : InstallRequest) : Except ExtensionError ExtensionDB := do
  let valid ← site.validateInstall request
  db.insertInstance valid.instance

end ExtensionSite

namespace ExtensionDB

variable (db : ExtensionDB) (id : Text) (revision : Nat)

def recordTest (code : Text) : Except ExtensionError ExtensionDB :=
  db.revise (uuidText id) (fun row => decide (row.configurationRev = revision) && row.idle)
    (fun row => { row with
      testedRevision := some row.configurationRev
      healthCode := code
      lifecycle := .stopped }) (fun _ => rfl)

def recordEnable (code : Text) : Except ExtensionError ExtensionDB :=
  db.revise (uuidText id) (fun row => decide (row.configurationRev = revision) &&
      decide (row.testedRevision = some revision) && row.idle)
    (fun row => { row with
      enabled := true
      routed := true
      lifecycle := .ready
      healthCode := code }) (fun _ => rfl)

def recordDisable : Except ExtensionError ExtensionDB :=
  db.revise (uuidText id) (fun row => decide (row.configurationRev = revision))
    (fun row => { row with
      enabled := false
      routed := false
      lifecycle := .stopped }) (fun _ => rfl)

end ExtensionDB

/-- An instance together with its secrets. -/
abbrev ExtensionView := Instance × (Text → Option Text)

def ExtensionDB.view (db : ExtensionDB) (id : Text) : Option ExtensionView :=
  (db.instances.find? id).map fun row => (row, db.secretIn id)

/-- What one transaction may do to an instance; it may install it or record the
test of a revision. -/
inductive Evolves (installs : Prop) (tests : Nat → Prop) :
    Option ExtensionView → Option ExtensionView → Prop
  | same (view : Option ExtensionView) : Evolves installs tests view view
  | installed {row : Instance} {secrets : Text → Option Text}
      (hinstalls : installs) (hidle : row.idle = true)
      (htested : row.testedRevision = none) : Evolves installs tests none (some (row, secrets))
  | revised {row next : Instance} {secrets changed : Text → Option Text}
      (hidle : row.idle = true) (hnext : next.idle = true)
      (hrevision : next.configurationRev = row.configurationRev + 1)
      (htested : next.testedRevision = none) :
      Evolves installs tests (some (row, secrets)) (some (next, changed))
  | tested {row : Instance} {secrets : Text → Option Text} (code : Text)
      (htests : tests row.configurationRev) (hidle : row.idle = true) :
      Evolves installs tests (some (row, secrets)) (some ({ row with
        testedRevision := some row.configurationRev
        healthCode := code
        lifecycle := .stopped }, secrets))
  | enabled {row : Instance} {secrets : Text → Option Text} (code : Text) (hidle : row.idle = true)
      (htested : row.testedRevision = some row.configurationRev) :
      Evolves installs tests (some (row, secrets)) (some ({ row with
        enabled := true
        routed := true
        lifecycle := .ready
        healthCode := code }, secrets))
  | disabled {row : Instance} {secrets : Text → Option Text} :
      Evolves installs tests (some (row, secrets)) (some ({ row with
        enabled := false
        routed := false
        lifecycle := .stopped }, secrets))
  | removed {row : Instance} {secrets : Text → Option Text}
      (hidle : row.idle = true) : Evolves installs tests (some (row, secrets)) none

theorem Evolves.mono {installs installs' : Prop} {tests tests' : Nat → Prop}
    {before next : Option ExtensionView} (hinstalls : installs → installs')
    (htests : ∀ revision, tests revision → tests' revision)
    (hevolves : Evolves installs tests before next) :
    Evolves installs' tests' before next := by
  cases hevolves with
  | same => exact .same _
  | installed hinstalled hidle htested =>
    exact .installed (hinstalls hinstalled) hidle htested
  | revised hidle hnext hrevision htested => exact .revised hidle hnext hrevision htested
  | tested code htested hidle => exact .tested code (htests _ htested) hidle
  | enabled code hidle htested => exact .enabled code hidle htested
  | disabled => exact .disabled
  | removed hidle => exact .removed hidle

section Statements

variable {db next : ExtensionDB} {id : Text}

theorem ExtensionDB.view_of_find {row : Instance} (hrow : db.instances.find? id = some row) :
    db.view id = some (row, db.secretIn id) := by
  rw [ExtensionDB.view, hrow, Option.map_some]

/-- The other tables do not show in a view. -/
theorem ExtensionDB.view_congr {first second : ExtensionDB}
    (hrow : first.instances.find? id = second.instances.find? id)
    (hsecrets : first.secretIn id = second.secretIn id) :
    first.view id = second.view id := by
  rw [ExtensionDB.view, hrow, hsecrets, ExtensionDB.view]

theorem ExtensionDB.revise_ok {condition : Instance → Bool} {change : Instance → Instance}
    {hid : ∀ row, (change row).instanceID = row.instanceID}
    (hrevise : db.revise id condition change hid = .ok next) :
    ∃ row, db.instances.find? id = some row ∧ condition row = true ∧
      (∀ other, next.instances.find? other =
        if other = id then some (change row) else db.instances.find? other) ∧
      next.secrets = db.secrets ∧ next.previews = db.previews := by
  unfold ExtensionDB.revise at hrevise
  split at hrevise
  · next hone =>
      obtain ⟨row, hrow, hcondition⟩ := Table.matching_length_eq_one_iff.mp hone
      split at hrevise
      · cases hrevise
      · next instances haccept =>
          cases hrevise
          refine ⟨row, hrow, hcondition, fun other => ?_, rfl, rfl⟩
          have hkey := Table.find?_key hrow
          rw [Constrained.accept_eq_some_iff] at haccept
          rw [haccept, Table.find?_update]
          by_cases hother : other = id
          · subst hother
            rw [if_pos rfl, hrow]
            simp [hkey, hcondition]
          · rw [if_neg hother]
            cases hfind : db.instances.find? other with
            | none => rfl
            | some found =>
              have hfound := Table.find?_key hfind
              simp [hfound, hother]
  · cases hrevise

/-- A statement on one instance leaves the others alone. -/
theorem Evolves.of_revise {before : ExtensionDB} {condition : Instance → Bool}
    {change : Instance → Instance} {hid : ∀ row, (change row).instanceID = row.instanceID}
    (hrevise : db.revise id condition change hid = .ok next)
    (hbefore : ∀ other, other ≠ id → db.view other = before.view other)
    (hchange : ∀ row, db.instances.find? id = some row → condition row = true →
      Evolves installs tests (before.view id) (some (change row, db.secretIn id))) (other : Text) :
    Evolves installs tests (before.view other) (next.view other) := by
  obtain ⟨row, hrow, hcondition, hfind, hsecrets, -⟩ := ExtensionDB.revise_ok hrevise
  have hsame : ∀ found, next.secretIn found = db.secretIn found := by
    intro found
    unfold ExtensionDB.secretIn
    rw [hsecrets]
  by_cases hother : other = id
  · subst hother
    have hnext := hfind other
    rw [if_pos rfl] at hnext
    rw [ExtensionDB.view_of_find hnext, hsame]
    exact hchange row hrow hcondition
  · have hnext := hfind other
    rw [if_neg hother] at hnext
    rw [ExtensionDB.view_congr hnext (hsame other), hbefore other hother]
    exact .same _

variable {revision : Nat} {other : Text}

theorem Evolves.recordTest {code : Text}
    (hrecord : db.recordTest id revision code = .ok next) (other : Text) :
    Evolves installs (fun tested => tested = revision ∧ uuidText id = other)
      (db.view other) (next.view other) := by
  by_cases hother : uuidText id = other
  · refine Evolves.of_revise hrecord (fun _ _ => rfl) (fun row hrow hcondition => ?_) other
    simp only [Bool.and_eq_true, decide_eq_true_eq] at hcondition
    rw [ExtensionDB.view_of_find hrow]
    exact .tested code ⟨hcondition.1, hother⟩ hcondition.2
  · obtain ⟨row, hrow, -, hfind, hsecrets, -⟩ := ExtensionDB.revise_ok hrecord
    have hnext := hfind other
    rw [if_neg (Ne.symm hother)] at hnext
    have hsame : next.secretIn other = db.secretIn other := by
      unfold ExtensionDB.secretIn
      rw [hsecrets]
    rw [ExtensionDB.view_congr hnext hsame]
    exact .same _

theorem Evolves.recordEnable {code : Text}
    (hrecord : db.recordEnable id revision code = .ok next) (other : Text) :
    Evolves installs tests (db.view other) (next.view other) := by
  refine Evolves.of_revise hrecord (fun _ _ => rfl) (fun row hrow hcondition => ?_) other
  simp only [Bool.and_eq_true, decide_eq_true_eq] at hcondition
  obtain ⟨⟨rfl, htested⟩, hidle⟩ := hcondition
  rw [ExtensionDB.view_of_find hrow]
  exact .enabled code hidle htested

theorem Evolves.recordDisable (hrecord : db.recordDisable id revision = .ok next) (other : Text) :
    Evolves installs tests (db.view other) (next.view other) := by
  refine Evolves.of_revise hrecord (fun _ _ => rfl) (fun row hrow _ => ?_) other
  rw [ExtensionDB.view_of_find hrow]
  exact .disabled

theorem ExtensionDB.putSecret_other {slot value : Text} (hother : other ≠ id) :
    (db.putSecret id slot value).secretIn other = db.secretIn other := by
  funext place
  unfold ExtensionDB.putSecret ExtensionDB.secretIn
  split
  · next secrets hinsert =>
      have hplace : (other, place) ≠ SecretRow.place ⟨id, slot, value⟩ :=
        fun hsame => hother (congrArg Prod.fst hsame)
      rw [Table.find?_insert hinsert, if_neg hplace, Table.find?_keep]
      cases hfind : db.secrets.find? (other, place) with
      | none => rfl
      | some row =>
        have hrow := Table.find?_key hfind
        rw [Option.filter_some, if_pos]
        rw [hrow]
        exact decide_eq_true hplace
  · rfl

theorem ExtensionDB.putSecrets_other {secrets : Mapping Text Text} (hother : other ≠ id) :
    (db.putSecrets id secrets).secretIn other = db.secretIn other := by
  unfold ExtensionDB.putSecrets
  induction secrets.entries generalizing db with
  | nil => rfl
  | cons entry rest ih =>
    rw [List.foldl_cons, ih, ExtensionDB.putSecret_other hother]

theorem ExtensionDB.putSecrets_tables {secrets : Mapping Text Text} :
    (db.putSecrets id secrets).instances = db.instances ∧
      (db.putSecrets id secrets).previews = db.previews := by
  unfold ExtensionDB.putSecrets
  induction secrets.entries generalizing db with
  | nil => exact ⟨rfl, rfl⟩
  | cons entry rest ih => exact ih

theorem ExtensionDB.deleteSecrets_other (hother : other ≠ id) :
    (db.deleteSecrets id).secretIn other = db.secretIn other := by
  funext place
  unfold ExtensionDB.deleteSecrets ExtensionDB.secretIn
  rw [Table.find?_keep]
  cases hfind : db.secrets.find? (other, place) with
  | none => rfl
  | some row =>
    have hrow : row.instanceID = other := congrArg Prod.fst (Table.find?_key hfind)
    rw [Option.filter_some, if_pos]
    exact decide_eq_true (hrow ▸ hother)

end Statements

section Transactions

variable {db next : ExtensionDB} {approval : PreviewApproval}

variable {found row : Instance} {id : Text} {preview : PreviewRow}

theorem scanInstance_ok (hscan : site.scanInstance row = .ok found) :
    ∃ metadata configuration, site.decodeMetadata row.metadata = some metadata ∧
      site.decodeConfiguration row.configuration = some configuration ∧
      found = { row with metadata := metadata, configuration := configuration } := by
  unfold ExtensionSite.scanInstance at hscan
  split at hscan
  · next metadata configuration hmetadata hconfiguration =>
      cases hscan
      exact ⟨metadata, configuration, hmetadata, hconfiguration, rfl⟩
  · cases hscan

theorem locateInstance_ok {key : Text} (hfind : site.locateInstance db key = .ok found) :
    ∃ row, db.instances.find? key = some row ∧ site.scanInstance row = .ok found := by
  unfold ExtensionSite.locateInstance at hfind
  split at hfind
  · cases hfind
  · next row hrow => exact ⟨row, hrow, hfind⟩

theorem loadPreview_ok (hload : loadPreview now db id = .ok preview) :
    db.previews.find? id = some preview ∧ preview.consumedAt = none ∧ now < preview.expiresAt := by
  unfold loadPreview at hload
  split at hload
  · cases hload
  · next row hrow =>
      split at hload
      · cases hload
      · next hfresh =>
          cases hload
          rw [not_or, Option.not_isSome_iff_eq_none, not_le] at hfresh
          exact ⟨hrow, hfresh.1, hfresh.2⟩

/-- What holds of the preview and the instance that a transaction has locked. -/
structure PreviewAdmitted (site : ExtensionSite) (now : Time) (db : ExtensionDB)
    (operation : PreviewOperation) (approval : PreviewApproval)
    (secrets : Mapping Text Text) (preview : PreviewRow) (row found : Instance) :
    Prop where
  stored : db.previews.find? approval.previewID = some preview
  fresh : preview.consumedAt = none
  current : now < preview.expiresAt
  operation : preview.operation = operation
  actor : preview.actor = approval.actor
  confirmation : preview.confirmationDigest = site.confirmationDigest approval.confirmation
  secrets : preview.secretBinding = site.secretBinding secrets
  located : db.instances.find? preview.instanceID = some row
  scanned : site.scanInstance row = .ok found
  revision : row.configurationRev = preview.baseRevision
  idle : row.idle = true

theorem admitPreview_ok {operation : PreviewOperation} {secrets : Mapping Text Text}
    (haccept : site.admitPreview now db operation approval secrets = .ok (preview, found)) :
    ∃ row, PreviewAdmitted site now db operation approval secrets preview row found := by
  simp only [ExtensionSite.admitPreview, except_bind_ok_iff, demand_ok_iff,
    ExtensionSite.verifyPreview, Bool.and_eq_true, decide_eq_true_eq, beq_iff_eq] at haccept
  obtain ⟨loaded, hload, _, ⟨⟨⟨hoperation, hactor⟩, hconfirmation⟩, hsecrets⟩, scanned,
    hfind, _, ⟨hrevision, hidle⟩, hreturn⟩ := haccept
  cases hreturn
  obtain ⟨hstored, hfresh, hcurrent⟩ := loadPreview_ok hload
  obtain ⟨row, hrow, hscan⟩ := locateInstance_ok hfind
  obtain ⟨metadata, configuration, -, -, rfl⟩ := scanInstance_ok hscan
  exact ⟨row, hstored, hfresh, hcurrent, hoperation, hactor, hconfirmation, hsecrets,
    hrow, hscan, hrevision, hidle⟩

/-- A transaction on an idle instance that writes its secrets and its next
revision. -/
theorem Evolves.of_revised {middle : ExtensionDB} {condition : Instance → Bool}
    {change : Instance → Instance} {hid : ∀ row, (change row).instanceID = row.instanceID}
    (hrow : db.instances.find? id = some row) (hidle : row.idle = true)
    (hinstances : middle.instances = db.instances)
    (hsecrets : ∀ other, other ≠ id → middle.secretIn other = db.secretIn other)
    (hchange : ∀ row, (change row).idle = row.idle ∧
      (change row).configurationRev = row.configurationRev + 1 ∧ (change row).testedRevision = none)
    (hrevise : middle.revise id condition change hid = .ok next) (other : Text) :
    Evolves installs tests (db.view other) (next.view other) := by
  refine Evolves.of_revise hrevise (fun other hother => ?_) (fun found hfound _ => ?_) other
  · exact ExtensionDB.view_congr (by rw [hinstances]) (hsecrets other hother)
  · rw [hinstances, hrow] at hfound
    cases hfound
    obtain ⟨hnext, hrevision, htested⟩ := hchange row
    rw [ExtensionDB.view_of_find hrow]
    exact .revised hidle (hnext.trans hidle) hrevision htested

theorem PreviewAdmitted.found_id {operation : PreviewOperation} {secrets : Mapping Text Text}
    (hadmitted : PreviewAdmitted site now db operation approval secrets preview row
      found) : found.instanceID = preview.instanceID := by
  obtain ⟨metadata, configuration, -, -, rfl⟩ := scanInstance_ok hadmitted.scanned
  have hkey : row.instanceID = preview.instanceID := Table.find?_key hadmitted.located
  exact hkey

theorem applyConfigure_ok {input : ConfigureInput}
    (happly : site.applyConfigure now db approval input = .ok next) :
    ∃ preview row found configuration revised,
      PreviewAdmitted site now db .configure approval input.secrets preview row found ∧
      site.validateConfiguration found.metadata input.configuration
        found.secretSlots = .ok configuration ∧
      sumHex configuration = preview.payloadSHA256 ∧
      validateSecrets input.secrets found.secretSlots = .ok () ∧
      (db.putSecrets preview.instanceID input.secrets).revise preview.instanceID
        (fun _ => true) (·.configured input.configuration) (fun _ => rfl) = .ok revised ∧
      next = revised.consume preview.id now := by
  simp only [ExtensionSite.applyConfigure, except_bind_ok_iff] at happly
  obtain ⟨⟨preview, found⟩, haccept, hrest⟩ := happly
  obtain ⟨row, hadmitted⟩ := admitPreview_ok haccept
  split at hrest
  · cases hrest
  · next configuration hconfiguration =>
      simp only [except_bind_ok_iff, demand_ok_iff, beq_iff_eq] at hrest
      obtain ⟨_, hpayload, ⟨⟩, hsecrets, revised, hrevise, hreturn⟩ := hrest
      rw [hadmitted.found_id] at hrevise
      cases hreturn
      exact ⟨preview, row, found, configuration, revised, hadmitted, hconfiguration,
        hpayload, hsecrets, hrevise, rfl⟩

theorem applyUpdate_ok (happly : site.applyUpdate now db approval = .ok next) :
    ∃ preview row found input revised,
      PreviewAdmitted site now db .update approval ∅ preview row found ∧
      site.updateOf preview.payload = some input ∧
      (∃ valid, site.validateInstall (found.updateRequest input) = .ok valid) ∧
      db.revise preview.instanceID (fun _ => true) (·.updated found input)
        (fun _ => rfl) = .ok revised ∧
      next = revised.consume preview.id now := by
  simp only [ExtensionSite.applyUpdate, except_bind_ok_iff] at happly
  obtain ⟨⟨preview, found⟩, haccept, hrest⟩ := happly
  obtain ⟨row, hadmitted⟩ := admitPreview_ok haccept
  split at hrest
  · cases hrest
  · next input hinput =>
      simp only [except_bind_ok_iff] at hrest
      obtain ⟨valid, hvalid, revised, hrevise, hreturn⟩ := hrest
      rw [hadmitted.found_id] at hrevise
      cases hreturn
      exact ⟨preview, row, found, input, revised, hadmitted, hinput, ⟨valid, hvalid⟩, hrevise, rfl⟩

theorem applyDeleteSecrets_ok (happly : site.applyDeleteSecrets now db approval = .ok next) :
    ∃ preview row found revised,
      PreviewAdmitted site now db .deleteSecrets approval ∅ preview row found ∧
      (db.deleteSecrets preview.instanceID).revise preview.instanceID (fun _ => true)
        Instance.revised (fun _ => rfl) = .ok revised ∧
      next = revised.consume preview.id now := by
  simp only [ExtensionSite.applyDeleteSecrets, except_bind_ok_iff] at happly
  obtain ⟨⟨preview, found⟩, haccept, revised, hrevise, hreturn⟩ := happly
  obtain ⟨row, hadmitted⟩ := admitPreview_ok haccept
  cases hreturn
  rw [hadmitted.found_id] at hrevise
  exact ⟨preview, row, found, revised, hadmitted, hrevise, rfl⟩

theorem applyUninstall_ok (happly : site.applyUninstall now db approval = .ok next) :
    ∃ preview row found, PreviewAdmitted site now db .uninstall approval ∅ preview row found ∧
      db.configuredSlots preview.instanceID = [] ∧
      db.deleteInstance preview.instanceID = .ok next := by
  simp only [ExtensionSite.applyUninstall, except_bind_ok_iff, demand_ok_iff, beq_iff_eq] at happly
  obtain ⟨⟨preview, found⟩, haccept, _, hslots, hdelete⟩ := happly
  obtain ⟨row, hadmitted⟩ := admitPreview_ok haccept
  rw [hadmitted.found_id] at hslots hdelete
  exact ⟨preview, row, found, hadmitted, hslots, hdelete⟩

theorem rollback_ok {confirmation : Text}
    (hrollback : site.rollback db id confirmation = .ok next) :
    ∃ row found previous, db.instances.find? (uuidText id) = some row ∧
      site.scanInstance row = .ok found ∧ row.idle = true ∧
      found.previousVersion.bind site.decodeSnapshot = some previous ∧
      validArtifact previous.artifactPin = true ∧
      (∃ encoded, site.validateConfiguration previous.metadata previous.configuration
        previous.secretSlots = .ok encoded) ∧ db.revise (uuidText id)
        (fun row => decide (row.configurationRev = found.configurationRev) && row.idle)
        (·.rolledBack found previous) (fun _ => rfl) = .ok next := by
  simp only [ExtensionSite.rollback, except_bind_ok_iff, demand_ok_iff,
    Bool.and_eq_true] at hrollback
  obtain ⟨found, hfind, _, ⟨⟨hidle, -⟩, -⟩, hrest⟩ := hrollback
  obtain ⟨row, hrow, hscan⟩ := locateInstance_ok hfind
  have hsame : row.idle = true := by
    obtain ⟨metadata, configuration, -, -, rfl⟩ := scanInstance_ok hscan
    exact hidle
  split at hrest
  · cases hrest
  · next previous hprevious =>
      simp only [except_bind_ok_iff, demand_ok_iff] at hrest
      obtain ⟨_, hartifact, hrest⟩ := hrest
      split at hrest
      · cases hrest
      · next encoded hvalid =>
          exact ⟨row, found, previous, hrow, hscan, hsame, hprevious, hartifact, ⟨encoded, hvalid⟩,
            hrest⟩

theorem install_ok {request : InstallRequest} (hinstall : site.install db request = .ok next) :
    ∃ valid, site.validateInstall request = .ok valid ∧
      db.insertInstance valid.instance = .ok next := by
  simpa only [ExtensionSite.install, except_bind_ok_iff] using hinstall

end Transactions

inductive ExtensionTransaction where
  | install (request : InstallRequest)
  | createPreview (request : PreviewRequest)
  | applyConfigure (approval : PreviewApproval) (input : ConfigureInput)
  | applyUpdate (approval : PreviewApproval)
  | applyDeleteSecrets (approval : PreviewApproval)
  | applyUninstall (approval : PreviewApproval)
  | rollback (id confirmation : Text)
  | recordTest (id : Text) (revision : Nat) (code : Text)
  | recordEnable (id : Text) (revision : Nat) (code : Text)
  | recordDisable (id : Text) (revision : Nat)

def ExtensionSite.execute (site : ExtensionSite) (now : Time) (db : ExtensionDB) :
    ExtensionTransaction → Except ExtensionError ExtensionDB
  | .install request => site.install db request
  | .createPreview request => db.insertPreview (site.previewRow now request)
  | .applyConfigure approval input => site.applyConfigure now db approval input
  | .applyUpdate approval => site.applyUpdate now db approval
  | .applyDeleteSecrets approval => site.applyDeleteSecrets now db approval
  | .applyUninstall approval => site.applyUninstall now db approval
  | .rollback id confirmation => site.rollback db id confirmation
  | .recordTest id revision code => db.recordTest id revision code
  | .recordEnable id revision code => db.recordEnable id revision code
  | .recordDisable id revision => db.recordDisable id revision

section Evolution

variable {db next : ExtensionDB}

theorem ExtensionDB.insertPreview_ok {row : PreviewRow}
    (hinsert : db.insertPreview row = .ok next) :
    ∃ previews, db.previews.insert row = some previews ∧
      next = { db with previews := previews } := by
  unfold ExtensionDB.insertPreview at hinsert
  split at hinsert
  · cases hinsert
  · split at hinsert
    · cases hinsert
    · next previews hpreviews =>
        cases hinsert
        exact ⟨previews, hpreviews, rfl⟩

theorem ExtensionDB.insertInstance_ok {row : Instance}
    (hinsert : db.insertInstance row = .ok next) :
    ∃ instances, db.instances.insert row = some instances.toTable ∧
      next = { db with instances := instances } := by
  unfold ExtensionDB.insertInstance at hinsert
  split at hinsert
  · cases hinsert
  · next instances haccept =>
      cases hinsert
      obtain ⟨table, htable, haccept⟩ := Option.bind_eq_some_iff.mp haccept
      rw [Constrained.accept_eq_some_iff] at haccept
      exact ⟨instances, htable.trans (congrArg some haccept.symm), rfl⟩

theorem ExtensionDB.deleteInstance_ok {id : Text} (hdelete : db.deleteInstance id = .ok next) :
    (∀ other, next.instances.find? other = if other = id then none else db.instances.find? other) ∧
      ∀ other, other ≠ id → next.secretIn other = db.secretIn other := by
  unfold ExtensionDB.deleteInstance at hdelete
  split at hdelete
  · cases hdelete
  · next instances haccept =>
      cases hdelete
      refine ⟨fun other => ?_, fun other hother => ?_⟩
      · rw [Constrained.accept_eq_some_iff] at haccept
        rw [haccept, Table.find?_keep]
        cases hfind : db.instances.find? other with
        | none => simp
        | some row =>
          have hkey := Table.find?_key hfind
          by_cases hother : other = id
          · simp [hkey, hother]
          · simp [hkey, hother]
      · exact ExtensionDB.deleteSecrets_other hother

def ExtensionTransaction.Installs (transaction : ExtensionTransaction) (id : Text) :
    Prop :=
  ∃ request, transaction = .install request ∧ uuidText request.instanceID = id

def ExtensionTransaction.Tests (transaction : ExtensionTransaction) (key : Text)
    (revision : Nat) : Prop :=
  ∃ id code, transaction = .recordTest id revision code ∧ uuidText id = key

theorem validateInstall_id {request valid : InstallRequest}
    (hvalid : site.validateInstall request = .ok valid) :
    valid.instanceID = request.instanceID := by
  simp only [ExtensionSite.validateInstall, except_bind_ok_iff] at hvalid
  obtain ⟨_, -, capabilities, -, interfaces, -, slots, -, _, -, _, -, hreturn⟩ := hvalid
  cases hreturn
  rfl

theorem Evolves.install {request : InstallRequest} {tests : Nat → Prop}
    (hinstall : site.install db request = .ok next) (id : Text) :
    Evolves (ExtensionTransaction.Installs (.install request) id) tests (db.view id)
      (next.view id) := by
  obtain ⟨valid, hvalid, hinsert⟩ := install_ok hinstall
  obtain ⟨instances, htable, rfl⟩ := ExtensionDB.insertInstance_ok hinsert
  have hfind := Table.find?_insert htable id
  obtain ⟨hfresh, -⟩ := Table.insert_eq_some_iff.mp htable
  by_cases hid : id = valid.instance.instanceID
  · rw [if_pos hid] at hfind
    rw [← hid] at hfresh
    have habsent : db.view id = none := by
      rw [ExtensionDB.view, hfresh, Option.map_none]
    have hview : ExtensionDB.view { db with instances := instances } id =
        some (valid.instance, db.secretIn id) :=
      ExtensionDB.view_of_find hfind
    rw [hview, habsent]
    refine .installed ⟨request, rfl, ?_⟩ rfl rfl
    rw [hid, ← validateInstall_id hvalid]
    rfl
  · rw [if_neg hid] at hfind
    have hview : ExtensionDB.view { db with instances := instances } id = db.view id :=
      ExtensionDB.view_congr hfind rfl
    rw [hview]
    exact .same _

theorem Evolves.uninstall {row : Instance} {id : Text} {installs : Prop} {tests : Nat → Prop}
    (hrow : db.instances.find? id = some row) (hidle : row.idle = true)
    (hdelete : db.deleteInstance id = .ok next) (other : Text) :
    Evolves installs tests (db.view other) (next.view other) := by
  obtain ⟨hfind, hsecrets⟩ := ExtensionDB.deleteInstance_ok hdelete
  have hnext := hfind other
  by_cases hother : other = id
  · subst hother
    rw [if_pos rfl] at hnext
    have habsent : next.view other = none := by
      rw [ExtensionDB.view, hnext, Option.map_none]
    rw [habsent, ExtensionDB.view_of_find hrow]
    exact .removed hidle
  · rw [if_neg hother] at hnext
    rw [ExtensionDB.view_congr hnext (hsecrets other hother)]
    exact .same _

/-- Every transaction changes the instances in one of the ways above. -/
theorem execute_evolves {transaction : ExtensionTransaction}
    (hexecute : site.execute now db transaction = .ok next) (id : Text) :
    Evolves (transaction.Installs id) (transaction.Tests id) (db.view id) (next.view id) := by
  cases transaction with
  | install request => exact Evolves.install hexecute id
  | createPreview request =>
    obtain ⟨previews, -, rfl⟩ := ExtensionDB.insertPreview_ok hexecute
    exact .same _
  | applyConfigure approval input =>
    obtain ⟨preview, row, found, configuration, revised, hadmitted, -, -, -, hrevise,
      rfl⟩ := applyConfigure_ok hexecute
    refine Evolves.of_revised hadmitted.located hadmitted.idle ExtensionDB.putSecrets_tables.1
      (fun _ hother => ExtensionDB.putSecrets_other hother) ?_ hrevise id
    exact fun _ => ⟨rfl, rfl, rfl⟩
  | applyUpdate approval =>
    obtain ⟨preview, row, found, input, revised, hadmitted, -, -, hrevise, rfl⟩ :=
      applyUpdate_ok hexecute
    refine Evolves.of_revised hadmitted.located hadmitted.idle rfl (fun _ _ => rfl) ?_ hrevise id
    exact fun _ => ⟨rfl, rfl, rfl⟩
  | applyDeleteSecrets approval =>
    obtain ⟨preview, row, found, revised, hadmitted, hrevise, rfl⟩ := applyDeleteSecrets_ok hexecute
    refine Evolves.of_revised hadmitted.located hadmitted.idle ?_ (fun _ hother => ?_) ?_ hrevise id
    · rfl
    · exact ExtensionDB.deleteSecrets_other hother
    · exact fun _ => ⟨rfl, rfl, rfl⟩
  | applyUninstall approval =>
    obtain ⟨preview, row, found, hadmitted, -, hdelete⟩ := applyUninstall_ok hexecute
    exact Evolves.uninstall hadmitted.located hadmitted.idle hdelete id
  | rollback wanted confirmation =>
    obtain ⟨row, found, previous, hrow, -, hidle, -, -, -, hrevise⟩ := rollback_ok hexecute
    refine Evolves.of_revised hrow hidle rfl (fun _ _ => rfl) ?_ hrevise id
    exact fun _ => ⟨rfl, rfl, rfl⟩
  | recordTest wanted revision code =>
    refine (Evolves.recordTest hexecute id).mono (fun hinstalls => hinstalls) ?_
    rintro tested ⟨rfl, hwanted⟩
    exact ⟨wanted, code, rfl, hwanted⟩
  | recordEnable wanted revision code => exact Evolves.recordEnable hexecute id
  | recordDisable wanted revision => exact Evolves.recordDisable hexecute id

end Evolution

end GotthMail
