/-
Rollback against update.  The version before an update is kept as text and is
validated again when it is restored, which it may never have been.
-/
import GotthMail.ExtensionAlone

namespace GotthMail

open Bytes Framing Relational Effect Calls

namespace ExtensionSite

variable (site : ExtensionSite)

/-- The databases that the transactions lead to. -/
inductive Reachable : ExtensionDB → Prop
  | empty : Reachable .empty
  | step {db next : ExtensionDB} {now : Time} {transaction : ExtensionTransaction}
      (hreachable : Reachable db) (hexecute : site.execute now db transaction = .ok next) :
      Reachable next

/-- A preview, or the application of a configuration. -/
def Configures (db next : ExtensionDB) : Prop :=
  ∃ now, (∃ request, site.execute now db (.createPreview request) = .ok next) ∨
    ∃ approval input, site.applyConfigure now db approval input = .ok next

/-- The contents of a row are valid, and are the same after they have been read twice:
when the version is kept and when it is restored. -/
structure Restorable (row : Instance) : Prop where
  metadata : (site.decodeMetadata row.metadata).bind site.decodeMetadata = some row.metadata
  configuration : (site.decodeConfiguration row.configuration).bind site.decodeConfiguration =
    some row.configuration
  valid : ∃ encoded, site.validateConfiguration row.metadata row.configuration row.secretSlots =
    .ok encoded

end ExtensionSite

variable {site : ExtensionSite} {db next : ExtensionDB} {row : Instance} {id key : Text}

theorem ExtensionSite.Restorable.scanned (hrestorable : site.Restorable row) :
    ∃ found, site.scanInstance row = .ok found := by
  obtain ⟨metadata, hmetadata, -⟩ := Option.bind_eq_some_iff.mp hrestorable.metadata
  obtain ⟨configuration, hconfiguration, -⟩ := Option.bind_eq_some_iff.mp hrestorable.configuration
  exact ⟨_, by rw [scanInstance, hmetadata, hconfiguration]⟩

/-- What has been kept of a row is read back as the row is, exactly when its contents are
the same after two readings. -/
theorem decodeSnapshot_iff {found : Instance} (hscan : site.scanInstance row = .ok found) :
    site.decodeSnapshot found.snapshot = some row.snapshot ↔
      (site.decodeMetadata row.metadata).bind site.decodeMetadata = some row.metadata ∧
      (site.decodeConfiguration row.configuration).bind site.decodeConfiguration =
        some row.configuration := by
  obtain ⟨metadata, configuration, hmetadata, hconfiguration, rfl⟩ := scanInstance_ok hscan
  rw [hmetadata, hconfiguration]
  simp only [ExtensionSite.decodeSnapshot, Instance.snapshot, Option.bind_eq_bind,
    Option.bind_some, Option.bind_eq_some_iff, Option.pure_def, Option.some.injEq,
    VersionSnapshot.mk.injEq, true_and]
  constructor
  · rintro ⟨first, hfirst, second, hsecond, rfl, rfl⟩
    exact ⟨hfirst, hsecond⟩
  · rintro ⟨hfirst, hsecond⟩
    exact ⟨_, hfirst, _, hsecond, rfl, rfl⟩

theorem validateInstall_artifact {request valid : InstallRequest}
    (hvalid : site.validateInstall request = .ok valid) :
    valid.artifactPin = request.artifactPin ∧ validArtifact request.artifactPin = true := by
  simp only [ExtensionSite.validateInstall, except_bind_ok_iff, demand_ok_iff,
    Bool.and_eq_true, and_assoc] at hvalid
  obtain ⟨_, -, -, -, hartifact, -, -, -, -, _, -, _, -, _, -, _, -, _, -, hreturn⟩ := hvalid
  cases hreturn
  exact ⟨rfl, hartifact⟩

/-- Every row has an artifact of the right form. -/
def Pinned (instances : Instances) : Prop :=
  ∀ key row, instances.find? key = some row → validArtifact row.artifactPin = true

theorem Pinned.revise {condition : Instance → Bool} {change : Instance → Instance}
    {hid : ∀ row, (change row).instanceID = row.instanceID}
    (hrevise : db.revise id condition change hid = .ok next) (hpinned : Pinned db.instances)
    (hchange : ∀ row, validArtifact row.artifactPin = true →
      validArtifact (change row).artifactPin = true) : Pinned next.instances := by
  obtain ⟨row, hrow, -, hfind, -⟩ := ExtensionDB.revise_ok hrevise
  intro key found hfound
  rw [hfind] at hfound
  split at hfound
  · cases hfound
    exact hchange row (hpinned id row hrow)
  · exact hpinned key found hfound

/-- Whatever is installed, updated or restored has had its artifact checked. -/
theorem execute_pinned {now : Time} {transaction : ExtensionTransaction}
    (hexecute : site.execute now db transaction = .ok next) (hpinned : Pinned db.instances) :
    Pinned next.instances := by
  cases transaction with
  | install request =>
    obtain ⟨valid, hvalid, hinsert⟩ := install_ok hexecute
    obtain ⟨instances, htable, rfl⟩ := ExtensionDB.insertInstance_ok hinsert
    intro key row hrow
    rw [show _ = _ from Table.find?_insert htable key] at hrow
    split at hrow
    · cases hrow
      obtain ⟨hsame, hartifact⟩ := validateInstall_artifact hvalid
      rwa [← hsame] at hartifact
    · exact hpinned key row hrow
  | createPreview request =>
    obtain ⟨previews, -, rfl⟩ := ExtensionDB.insertPreview_ok hexecute
    exact hpinned
  | applyConfigure approval input =>
    obtain ⟨_, _, _, _, revised, -, -, -, -, hrevise, rfl⟩ := applyConfigure_ok hexecute
    rw [← ExtensionDB.putSecrets_tables.1] at hpinned
    exact (Pinned.revise hrevise hpinned fun _ hartifact => hartifact :)
  | applyUpdate approval =>
    obtain ⟨_, _, _, _, revised, -, -, ⟨_, hvalid⟩, hrevise, rfl⟩ := applyUpdate_ok hexecute
    exact (Pinned.revise hrevise hpinned fun _ _ => (validateInstall_artifact hvalid).2 :)
  | applyDeleteSecrets approval =>
    obtain ⟨_, _, _, revised, -, hrevise, rfl⟩ := applyDeleteSecrets_ok hexecute
    exact (Pinned.revise hrevise hpinned fun _ hartifact => hartifact :)
  | applyUninstall approval =>
    obtain ⟨_, _, _, -, -, hdelete⟩ := applyUninstall_ok hexecute
    intro key row hrow
    rw [(ExtensionDB.deleteInstance_ok hdelete).1] at hrow
    split at hrow
    · cases hrow
    · exact hpinned key row hrow
  | rollback id confirmation =>
    obtain ⟨_, _, _, -, -, -, -, hartifact, -, hrevise⟩ := rollback_ok hexecute
    exact Pinned.revise hrevise hpinned fun _ _ => hartifact
  | recordTest | recordEnable | recordDisable =>
    exact Pinned.revise hexecute hpinned fun _ hartifact => hartifact

theorem ExtensionSite.Reachable.pinned (hreachable : site.Reachable db) :
    Pinned db.instances := by
  induction hreachable with
  | empty => exact nofun
  | step _ hexecute ih => exact execute_pinned hexecute ih

/-- A statement on one row that keeps what the table constrains succeeds. -/
theorem ExtensionDB.revise_succeeds (condition : Instance → Bool) (change : Instance → Instance)
    (hid : ∀ row, (change row).instanceID = row.instanceID)
    (hrow : db.instances.find? key = some row) (hcondition : condition row = true)
    (hchange : ∀ row, (change row).extensionID = row.extensionID ∧
      (change row).routed = row.routed ∧ (change row).enabled = row.enabled) :
    ∃ next, db.revise key condition change hid = .ok next := by
  have hsame : ∀ row, let changed := if row.instanceID = key && condition row then change row
      else row
      changed.extensionID = row.extensionID ∧ changed.routed = row.routed ∧
        changed.enabled = row.enabled := by
    intro row
    split
    · exact hchange row
    · exact ⟨rfl, rfl, rfl⟩
  rw [ExtensionDB.revise, if_pos (Table.matching_length_eq_one_iff.mpr ⟨row, hrow, hcondition⟩)]
  split
  · next hrefused =>
    rw [Constrained.accept, dite_eq_right_iff] at hrefused
    refine absurd (hrefused ?_) (Option.some_ne_none _)
    have hholds := db.instances.constraint
    rw [Bool.and_eq_true, decide_eq_true_eq, List.all_eq_true] at hholds ⊢
    simp only [Table.update, List.map_map, List.forall_mem_map, Function.comp_def, hsame]
    exact hholds
  · exact ⟨_, rfl⟩

/-- A rollback to a version that is read back as it was and is valid. -/
theorem rollback_restores {found kept previous : Instance}
    (hrow : db.instances.find? (uuidText id) = some row) (hidle : row.idle = true)
    (hscan : site.scanInstance row = .ok found)
    (hprevious : row.previousVersion = some kept.snapshot)
    (hkept : site.scanInstance previous = .ok kept)
    (hartifact : validArtifact previous.artifactPin = true)
    (hrestorable : site.Restorable previous) :
    ∃ next, site.rollback db id (ExtensionSite.rollbackConfirmation row) = .ok next ∧
      next.instances.find? (uuidText id) = some (row.rolledBack found previous.snapshot) := by
  have hfind : site.findInstance db id = .ok found := by
    rw [ExtensionSite.findInstance, ExtensionSite.locateInstance, hrow]
    exact hscan
  have hsnapshot := (decodeSnapshot_iff hkept).mpr ⟨hrestorable.metadata, hrestorable.configuration⟩
  have hsome : kept.artifactPin ≠ [] := by
    obtain ⟨_, _, -, -, rfl⟩ := scanInstance_ok hkept
    rintro hempty
    rw [show previous.artifactPin = [] from hempty] at hartifact
    exact absurd hartifact (by decide)
  obtain ⟨hstopped, hversion, hextension, hrevision⟩ : found.idle = true ∧
      found.previousVersion = some kept.snapshot ∧ found.extensionID = row.extensionID ∧
      found.configurationRev = row.configurationRev := by
    obtain ⟨_, _, -, -, rfl⟩ := scanInstance_ok hscan
    exact ⟨hidle, hprevious, rfl, rfl⟩
  obtain ⟨encoded, hvalid⟩ := hrestorable.valid
  obtain ⟨next, hrevise⟩ := ExtensionDB.revise_succeeds
    (fun row => decide (row.configurationRev = found.configurationRev) && row.idle)
    (·.rolledBack found previous.snapshot) (fun _ => rfl) hrow (by simp [hidle, hrevision])
    fun _ => ⟨rfl, rfl, rfl⟩
  refine ⟨next, ?_, ?_⟩
  · simp only [ExtensionSite.rollback, except_bind_ok_iff, demand_ok_iff]
    refine ⟨found, hfind, (), ?_, ?_⟩
    · simp [hstopped, ExtensionSite.rollbackConfirmation, Instance.previousArtifact, hversion,
        hprevious, hextension, Instance.snapshot, hsome]
    · simp only [hversion, Option.bind_some, hsnapshot, except_bind_ok_iff, demand_ok_iff]
      refine ⟨(), hartifact, ?_⟩
      rw [show site.validateConfiguration previous.snapshot.metadata previous.snapshot.configuration
        previous.snapshot.secretSlots = .ok encoded from hvalid]
      exact hrevise
  · obtain ⟨found, hfound, -, hnext, -⟩ := ExtensionDB.revise_ok hrevise
    rw [hnext, if_pos rfl]
    cases hrow.symm.trans hfound
    rfl

/-- A rollback that gives a version back has read it as it was. -/
theorem rollback_reads {found kept previous restored : Instance} {confirmation : Text}
    (hrow : db.instances.find? (uuidText id) = some row)
    (hscan : site.scanInstance row = .ok found)
    (hprevious : row.previousVersion = some kept.snapshot)
    (hkept : site.scanInstance previous = .ok kept)
    (hrollback : site.rollback db id confirmation = .ok next)
    (hrestored : next.instances.find? (uuidText id) = some restored)
    (hsame : restored.snapshot = previous.snapshot) :
    site.Restorable previous ∧ restored = row.rolledBack found previous.snapshot := by
  obtain ⟨_, _, version, hfound, hread, -, hversion, -, hvalid, hrevise⟩ := rollback_ok hrollback
  cases hrow.symm.trans hfound
  cases hscan.symm.trans hread
  obtain ⟨_, hagain, -, hnext, -⟩ := ExtensionDB.revise_ok hrevise
  cases hrow.symm.trans hagain
  rw [hnext, if_pos rfl] at hrestored
  cases hrestored
  obtain rfl : version = previous.snapshot := hsame
  obtain ⟨_, _, -, -, rfl⟩ := scanInstance_ok hscan
  rw [show _ = some kept.snapshot from hprevious, Option.bind_some] at hversion
  obtain ⟨hmetadata, hconfiguration⟩ := (decodeSnapshot_iff hkept).mp hversion
  exact ⟨⟨hmetadata, hconfiguration, hvalid⟩, rfl⟩

/-- Configuring an instance keeps its version and the one before. -/
theorem Configures.keeps {previous : VersionSnapshot} {artifactPin : Text}
    (hsteps : Relation.ReflTransGen site.Configures db next)
    (hdb : ∃ row, db.instances.find? key = some row ∧ row.idle = true ∧
      row.previousVersion = some previous ∧ row.artifactPin = artifactPin) :
    ∃ row, next.instances.find? key = some row ∧ row.idle = true ∧
      row.previousVersion = some previous ∧ row.artifactPin = artifactPin := by
  induction hsteps with
  | refl => exact hdb
  | tail _ hstep ih =>
    obtain ⟨row, hrow, hidle, hprevious, hartifact⟩ := ih
    obtain ⟨_, ⟨_, hexecute⟩ | ⟨_, _, happly⟩⟩ := hstep
    · obtain ⟨previews, -, rfl⟩ := ExtensionDB.insertPreview_ok hexecute
      exact ⟨row, hrow, hidle, hprevious, hartifact⟩
    · obtain ⟨preview, _, _, _, revised, -, -, -, -, hrevise, rfl⟩ := applyConfigure_ok happly
      obtain ⟨found, hfound, -, hfind, -⟩ := ExtensionDB.revise_ok hrevise
      rw [ExtensionDB.putSecrets_tables.1] at hfound hfind
      rw [show (revised.consume _ _).instances.find? key = _ from hfind key]
      split
      · next hkey =>
        rw [hkey] at hrow
        cases hrow.symm.trans hfound
        exact ⟨_, rfl, hidle, hprevious, hartifact⟩
      · exact ⟨row, hrow, hidle, hprevious, hartifact⟩

/-- After an update and any configuring of it, a rollback restores the version before the
update and a second one the version that it replaced, exactly when both versions are valid
and the same after two readings. -/
theorem rollback_undoes_update {now : Time} {approval : PreviewApproval} {preview : PreviewRow}
    {updated last : ExtensionDB} {current : Instance} (hreachable : site.Reachable db)
    (hpreview : db.previews.find? approval.previewID = some preview)
    (hid : preview.instanceID = uuidText id)
    (hrow : db.instances.find? (uuidText id) = some row)
    (hupdate : site.applyUpdate now db approval = .ok updated)
    (hconfigured : Relation.ReflTransGen site.Configures updated last)
    (hcurrent : last.instances.find? (uuidText id) = some current) :
    (∃ undone redone before after,
      site.rollback last id (ExtensionSite.rollbackConfirmation current) = .ok undone ∧
      undone.instances.find? (uuidText id) = some before ∧ before.snapshot = row.snapshot ∧
      before.configurationRev = current.configurationRev + 1 ∧ before.testedRevision = none ∧
      site.rollback undone id (ExtensionSite.rollbackConfirmation before) = .ok redone ∧
      redone.instances.find? (uuidText id) = some after ∧ after.snapshot = current.snapshot ∧
      after.configurationRev = before.configurationRev + 1 ∧ after.testedRevision = none) ↔
      site.Restorable row ∧ site.Restorable current := by
  obtain ⟨_, _, kept, input, revised, hadmitted, -, ⟨_, hvalid⟩, hrevise, rfl⟩ :=
    applyUpdate_ok hupdate
  cases hadmitted.stored.symm.trans hpreview
  have hlocated := hadmitted.located
  rw [hid] at hlocated hrevise
  cases hlocated.symm.trans hrow
  obtain ⟨_, hfound, -, hfind, -⟩ := ExtensionDB.revise_ok hrevise
  cases hrow.symm.trans hfound
  obtain ⟨_, hlast, hidle, hprevious, hartifact⟩ := Configures.keeps hconfigured
    ⟨_, (hfind _).trans (if_pos rfl), hadmitted.idle, rfl, rfl⟩
  cases hlast.symm.trans hcurrent
  constructor
  · rintro ⟨undone, redone, before, after, hundone, hbefore, hsame, -, -, hredone, hafter,
      hagain, -⟩
    obtain ⟨_, found, _, hread, hscan, -⟩ := rollback_ok hundone
    cases hcurrent.symm.trans hread
    obtain ⟨hrestorable, rfl⟩ := rollback_reads hcurrent hscan hprevious hadmitted.scanned
      hundone hbefore hsame
    have hrewritten : site.Restorable (current.rolledBack found row.snapshot) :=
      ⟨hrestorable.metadata, hrestorable.configuration, hrestorable.valid⟩
    obtain ⟨reread, hreread⟩ := hrewritten.scanned
    exact ⟨hrestorable, (rollback_reads hbefore hreread rfl hscan hredone hafter hagain).1⟩
  · rintro ⟨hrestorable, hrepeatable⟩
    obtain ⟨found, hscan⟩ := hrepeatable.scanned
    obtain ⟨undone, hundone, hbefore⟩ := rollback_restores hcurrent hidle hscan hprevious
      hadmitted.scanned (hreachable.pinned _ _ hrow) hrestorable
    have hrewritten : site.Restorable (current.rolledBack found row.snapshot) :=
      ⟨hrestorable.metadata, hrestorable.configuration, hrestorable.valid⟩
    obtain ⟨reread, hreread⟩ := hrewritten.scanned
    obtain ⟨redone, hredone, hafter⟩ := rollback_restores hbefore hidle hreread rfl hscan
      (hartifact ▸ (validateInstall_artifact hvalid).2) hrepeatable
    exact ⟨undone, redone, _, _, hundone, hbefore, rfl, rfl, rfl, hredone, hafter, rfl, rfl, rfl⟩

section Example

def updateInput (metadata : ExtensionMetadata) : UpdateInput :=
  let request := webhookRequest 98
  ⟨request.artifactPin, request.manifestDigest, request.grantDigest, request.sessionDigest,
    request.capabilities, request.interfaces, request.secretSlots, metadata⟩

/-- The approval of the preview that was made with a random seed. -/
def seedApproval (seed : UInt8) : PreviewApproval :=
  ⟨webhookOperator, ascii "extp_" ++ encodeHex [seed], ascii "confirm-" ++ encodeHex [seed]⟩

def seedPreview (seed : UInt8) (operation : PreviewOperation) (revision : Nat)
    (payload : PreviewPayload) : ExtensionTransaction :=
  .createPreview ⟨(seedApproval seed).previewID, webhookID, operation, webhookOperator, revision,
    payload, ∅, (seedApproval seed).confirmation⟩

/-- An endpoint and its key, without defaults. -/
def endpointMetadata : ExtensionMetadata :=
  { webhookMetadata with fields := webhookMetadata.fields.filter (·.default.isNone) }

def endpointConfiguration (endpoint : String) : List Member :=
  [(ascii "webhook.endpoint", .string (ascii endpoint))]

def configureWith (seed : UInt8) (revision : Nat) (endpoint : String) :
    List ExtensionTransaction :=
  [seedPreview seed .configure revision (.configuration (endpointConfiguration endpoint)),
    .applyConfigure (seedApproval seed) ⟨endpointConfiguration endpoint, ∅⟩]

/-- An instance is installed and configured, and an update of it is previewed. -/
def beforeUpdate : List ExtensionTransaction :=
  .install { webhookRequest 97 with metadata := endpointMetadata } ::
    configureWith 1 1 "https://a.test/" ++
    [seedPreview 2 .update 2 (.update (updateInput endpointMetadata))]

def executed (transactions : List ExtensionTransaction) (db : ExtensionDB) :
    Except ExtensionError ExtensionDB :=
  transactions.foldlM (plainExtensions.execute 0) db

theorem executed_reachable {transactions : List ExtensionTransaction}
    (hexecuted : executed transactions db = .ok next)
    (hreachable : plainExtensions.Reachable db) : plainExtensions.Reachable next := by
  unfold executed at hexecuted
  induction transactions generalizing db with
  | nil =>
    cases hexecuted
    exact hreachable
  | cons transaction rest ih =>
    obtain ⟨middle, hstep, hrest⟩ := except_bind_ok_iff.mp
      (show (plainExtensions.execute 0 db transaction >>= _) = _ from hexecuted)
    exact ih hrest (.step hreachable hstep)

theorem configureWith_configures {seed : UInt8} {revision : Nat} {endpoint : String}
    (hexecuted : executed (configureWith seed revision endpoint) db = .ok next) :
    Relation.ReflTransGen plainExtensions.Configures db next := by
  obtain ⟨middle, hpreview, hrest⟩ := except_bind_ok_iff.mp
    (show (plainExtensions.execute 0 db _ >>= _) = _ from hexecuted)
  obtain ⟨last, happly, hreturn⟩ := except_bind_ok_iff.mp
    (show (plainExtensions.execute 0 middle _ >>= _) = _ from hrest)
  cases hreturn
  exact .tail (.single ⟨0, .inl ⟨_, hpreview⟩⟩) ⟨0, .inr ⟨_, _, happly⟩⟩

/-- A valid row without defaults and with one text in its configuration. -/
def Instance.simple (row : Instance) : Bool :=
  row.metadata.fields.all (·.default.isNone) &&
    (match row.configuration with
    | [(_, .string _)] => true
    | _ => false) &&
    (plainExtensions.validateConfiguration row.metadata row.configuration
      row.secretSlots).toOption.isSome

theorem decodeMetadata_plain {metadata : ExtensionMetadata}
    (hplain : metadata.fields.all (·.default.isNone) = true) :
    site.decodeMetadata metadata = some metadata := by
  have hself {read : ExtensionField → Option ExtensionField} (fields : List ExtensionField)
      (hread : ∀ field ∈ fields, read field = some field) : fields.mapM read = some fields := by
    induction fields with
    | nil => rfl
    | cons field rest ih =>
      obtain ⟨hfield, hrest⟩ := List.forall_mem_cons.mp hread
      simp [hfield, ih hrest]
  rw [ExtensionSite.decodeMetadata, hself metadata.fields]
  · rfl
  · intro field hfield
    rw [Option.isNone_iff_eq_none.mp (List.all_eq_true.mp hplain field hfield)]

theorem restorable_of_simple (hsimple : row.simple = true) : plainExtensions.Restorable row := by
  simp only [Instance.simple, Bool.and_eq_true] at hsimple
  obtain ⟨⟨hplain, htext⟩, hvalid⟩ := hsimple
  have hmetadata : plainExtensions.decodeMetadata row.metadata = some row.metadata :=
    decodeMetadata_plain hplain
  refine ⟨by rw [hmetadata, Option.bind_some, hmetadata], ?_, ?_⟩
  · split at htext
    · next name text hconfiguration =>
        rw [hconfiguration]
        rfl
    · cases htext
  · cases hresult : plainExtensions.validateConfiguration row.metadata row.configuration
        row.secretSlots with
    | error reason =>
      rw [hresult] at hvalid
      cases hvalid
    | ok encoded => exact ⟨encoded, rfl⟩

/-- The instance is updated and configured once more. -/
def endpointRun : Bool :=
  match executed beforeUpdate .empty with
  | .error _ => false
  | .ok db =>
    match plainExtensions.applyUpdate 0 db (seedApproval 2) with
    | .error _ => false
    | .ok updated =>
      match executed (configureWith 3 3 "https://b.test/") updated with
      | .error _ => false
      | .ok last => (db.instances.find? (uuidText webhookID)).any Instance.simple &&
          (db.previews.find? (seedApproval 2).previewID).any
            (·.instanceID == uuidText webhookID) &&
          (last.instances.find? (uuidText webhookID)).any Instance.simple

set_option maxRecDepth 100000 in
theorem rollback_undoes_update_endpoint : ∃ db updated last row current undone redone before,
    executed beforeUpdate .empty = .ok db ∧
    plainExtensions.applyUpdate 0 db (seedApproval 2) = .ok updated ∧
    executed (configureWith 3 3 "https://b.test/") updated = .ok last ∧
    db.instances.find? (uuidText webhookID) = some row ∧
    last.instances.find? (uuidText webhookID) = some current ∧
    plainExtensions.rollback last webhookID (ExtensionSite.rollbackConfirmation current) =
      .ok undone ∧
    undone.instances.find? (uuidText webhookID) = some before ∧
    before.snapshot = row.snapshot ∧
    plainExtensions.rollback undone webhookID (ExtensionSite.rollbackConfirmation before) =
      .ok redone := by
  have hrun : endpointRun = true := by decide +kernel
  unfold endpointRun at hrun
  split at hrun
  · cases hrun
  · next db hdb =>
    split at hrun
    · cases hrun
    · next updated hupdate =>
      split at hrun
      · cases hrun
      · next last hlast =>
        simp only [Bool.and_eq_true, Option.any_eq_true, beq_iff_eq] at hrun
        obtain ⟨⟨⟨row, hrow, hsimple⟩, preview, hpreview, hid⟩, current, hcurrent, hagain⟩ := hrun
        obtain ⟨undone, redone, before, after, hundone, hbefore, hsame, -, -, hredone, -⟩ :=
          (rollback_undoes_update (executed_reachable hdb .empty) hpreview hid hrow hupdate
            (configureWith_configures hlast) hcurrent).mpr
            ⟨restorable_of_simple hsimple, restorable_of_simple hagain⟩
        exact ⟨db, updated, last, row, current, undone, redone, before, hdb, hupdate, hlast, hrow,
          hcurrent, hundone, hbefore, hsame, hredone⟩

/-- Requests of the administration, one after the other, each with its random seed. -/
def administer : List (UInt8 × ExtensionJob) → ExtensionMoment → List (Except ExtensionError Unit)
  | [], _ => []
  | (seed, job) :: rest, moment =>
    let (result, next) := (job.task plainExtensions).run.run
      (plainExtensions.note (fun _ => false) [seed] 1 0) moment
    result :: administer rest next

set_option maxRecDepth 100000 in
/-- A required field of the first version was never configured, and the update drops it. -/
theorem unconfigured_not_restored : administer
    [(1, .install webhookOperator (webhookRequest 97)),
      (2, .previewUpdate webhookOperator webhookID (updateInput
        { webhookMetadata with fields := webhookMetadata.fields.drop 1 })),
      (3, .applyUpdate (seedApproval 2)),
      (4, .rollback webhookOperator webhookID
        (ascii "rollback gotth.mail.notification.webhook to " ++ (webhookRequest 97).artifactPin))]
    ⟨⟨.empty, .empty⟩, []⟩ = [.ok (), .ok (), .ok (), .error .conflict] := by
  decide +kernel

end Example

end GotthMail
