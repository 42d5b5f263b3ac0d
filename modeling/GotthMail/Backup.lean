/-
Verification of backups.  An artifact is restored by some engine, and the
restored service has to accept every mailbox address of the artifact; the
outbound policy of an artifact is verified by the engine.
-/
import GotthMail.ImportTables

namespace GotthMail

open Bytes Ranges Relational Effect

/-- A backup, with the outbound policy state when there is one. -/
structure BackupArtifact (Policy : Type) where
  domains : Mapping Text DaemonDomain
  mailboxes : Mapping Text DaemonMailbox
  aliases : Mapping Text DaemonAlias
  outboundPolicy : Option Policy
  configSetID : Text
  schemaVersion : Text

structure RestoredBackup where
  ref : Text
  service : Daemon
  policyVerified : Bool

/-- What an engine returns: a restored backup, and an error if there was one. -/
abbrev RestoreEngine (Policy : Type) := BackupArtifact Policy → RestoredBackup × Option Text

structure FailureReport where
  step : Text
  safeError : Text
  remediationHint : Text
  retryMayHelp : Bool
deriving DecidableEq

inductive BackupStatus where
  | failed
  | verified
deriving DecidableEq

structure Backup where
  status : BackupStatus
  artifactRef : Text
  schemaVersion : Text
  configSetID : Text
  isolatedRestoreRef : Text
  failureReport : Option FailureReport
deriving DecidableEq

/-- The service of the state in an artifact. -/
def BackupArtifact.service {Policy : Type} (artifact : BackupArtifact Policy) :
    Daemon :=
  ⟨false, artifact.domains, artifact.mailboxes, artifact.aliases, ∅, none⟩

def localContractRestore {Policy : Type} : RestoreEngine Policy := fun artifact =>
  (⟨ascii "local-contract-restore", artifact.service, false⟩, none)

namespace Daemon

variable (p : Platform) (order : Order Text)

/-- The flag of the mailbox that stands for a recipient, or of the alias. -/
def recipientFlag (service : Daemon) (address : Text) : Option Bool :=
  let normalized := normalizeAddress p address
  if normalized ∈ mailboxView p order service then
    ((mailboxView p order service).lookup (normalizeAddress p normalized)).map DaemonMailbox.enabled
  else if normalized ∈ aliasView p order service then
    ((aliasView p order service).lookup (normalizeAddress p normalized)).map DaemonAlias.enabled
  else none

def aliasFlag (service : Daemon) (address : Text) : Option Bool :=
  ((aliasView p order service).lookup (normalizeAddress p address)).map DaemonAlias.enabled

/-- What is answered to a flag. -/
def flagged : Option Bool → DaemonDecision
  | none => .notFound
  | some true => .ok
  | some false => .reject

theorem flagged_inj {first second : Option Bool} :
    flagged first = flagged second ↔ first = second := by
  rcases first with _ | _ | _ <;> rcases second with _ | _ | _ <;> simp [flagged]

variable {p order} {service : Daemon} {address : Text}

theorem postfixAlias_decision (havailable : service.unavailable = false) :
    (postfixAlias p order service address).decision =
      flagged (aliasFlag p order service address) := by
  rw [postfixAlias, aliasFlag, havailable, if_neg Bool.false_ne_true]
  cases (aliasView p order service).lookup (normalizeAddress p address) with
  | none => rfl
  | some found => cases henabled : found.enabled <;> simp [henabled, flagged, resp]

theorem postfixMailbox_decision (havailable : service.unavailable = false) :
    (postfixMailbox p order service address).decision =
      flagged (((mailboxView p order service).lookup (normalizeAddress p address)).map
        DaemonMailbox.enabled) := by
  rw [postfixMailbox, havailable, if_neg Bool.false_ne_true]
  cases (mailboxView p order service).lookup (normalizeAddress p address) with
  | none => rfl
  | some mailbox => cases henabled : mailbox.enabled <;> simp [henabled, flagged, resp]

theorem postfixRecipient_decision (havailable : service.unavailable = false) :
    (postfixRecipient p order service address).decision =
      flagged (recipientFlag p order service address) := by
  rw [postfixRecipient, recipientFlag, havailable, if_neg Bool.false_ne_true]
  dsimp only
  split
  · exact postfixMailbox_decision havailable
  · split
    · exact postfixAlias_decision havailable
    · rfl

variable (verifies : Text → Text → Bool)

/-- A password is accepted by the verifier of an enabled mailbox or of one of its app
passwords. -/
def opens (mailbox : DaemonMailbox) (apps : List Text) (secret : Text) : Bool :=
  mailbox.enabled && !oidcSecret secret && (verifies mailbox.verifier secret ||
    decide (apps.length ≤ maxAppPasswordVerifiers) && apps.any (verifies · secret))

/-- There are too many app passwords to be tried. -/
def crowded (mailbox : DaemonMailbox) (apps : List Text) (secret : Text) : Bool :=
  mailbox.enabled && !oidcSecret secret && !verifies mailbox.verifier secret &&
    decide (maxAppPasswordVerifiers < apps.length)

def passwordDecision (audited : Bool) (mailbox : DaemonMailbox) (apps : List Text)
    (secret : Text) : DaemonDecision :=
  if opens verifies mailbox apps secret then if audited then .ok else .defer
  else if crowded verifies mailbox apps secret then .error
  else .reject

theorem dovecotPassdb_decision {req : PassdbRequest} (havailable : service.unavailable = false)
    (hprotocol : req.protocol = ascii "imap" ∨ req.protocol = ascii "submission") :
    (dovecotPassdb p order service verifies req).decision =
      (mailboxAuth p order service (normalizeAddress p req.username)).elim .notFound fun found =>
        passwordDecision verifies (auditPassdb service) found.1 found.2 req.secret := by
  rw [dovecotPassdb, havailable, if_neg Bool.false_ne_true, if_neg (by tauto)]
  cases mailboxAuth p order service (normalizeAddress p req.username) with
  | none => rfl
  | some found =>
    obtain ⟨mailbox, apps⟩ := found
    dsimp only [Option.elim, passwordDecision, opens, crowded]
    by_cases henabled : mailbox.enabled = true
    · by_cases hbearer : oidcSecret req.secret = true
      · simp [henabled, hbearer, resp]
      · by_cases hverified : verifies mailbox.verifier req.secret = true
        · by_cases haudit : auditPassdb service = true <;>
            simp [henabled, hbearer, hverified, haudit, resp]
        · by_cases hmany : maxAppPasswordVerifiers < apps.length
          · simp [henabled, hbearer, hverified, hmany, Nat.not_le.mpr hmany, resp]
          · have hfew := Nat.le_of_not_lt hmany
            rcases Bool.eq_false_or_eq_true (apps.any (verifies · req.secret)) with hany | hany <;>
              by_cases haudit : auditPassdb service = true <;>
              simp only [henabled, hbearer, hverified, hmany, hfew, hany, haudit, resp,
                decide_true, decide_false, Bool.not_true, Bool.not_false, Bool.and_true,
                Bool.and_false, Bool.false_or, Bool.false_eq_true, if_true, if_false]
    · simp [henabled, resp]

/-- A mailbox opens as the original one, which has no app passwords, does. -/
structure OpensAlike (audited : Bool) (mailbox : DaemonMailbox) (apps : List Text)
    (original : DaemonMailbox) : Prop where
  accepted : ∀ secret, opens verifies mailbox apps secret = opens verifies original [] secret
  audited : ∀ secret, opens verifies original [] secret = true → audited = true
  few : ∀ secret, crowded verifies mailbox apps secret = false

theorem passwordDecision_eq_iff {audited : Bool} {mailbox original : DaemonMailbox}
    {apps : List Text} :
    (∀ secret, passwordDecision verifies audited mailbox apps secret =
        passwordDecision verifies true original [] secret) ↔
      OpensAlike verifies audited mailbox apps original := by
  have hnever (secret : Text) : crowded verifies original [] secret = false := by simp [crowded]
  have heach (secret : Text) : passwordDecision verifies audited mailbox apps secret =
        passwordDecision verifies true original [] secret ↔
      opens verifies mailbox apps secret = opens verifies original [] secret ∧
        (opens verifies original [] secret = true → audited = true) ∧
        crowded verifies mailbox apps secret = false := by
    have happart : opens verifies mailbox apps secret = true →
        crowded verifies mailbox apps secret = false := by
      simp only [opens, crowded]
      cases mailbox.enabled <;> cases oidcSecret secret <;>
        cases verifies mailbox.verifier secret <;> simp
      omega
    rw [passwordDecision, passwordDecision, hnever]
    cases hopens : opens verifies mailbox apps secret <;>
      cases opens verifies original [] secret <;> cases audited <;>
      cases hcrowded : crowded verifies mailbox apps secret <;> simp_all
  simp only [heach, forall_and]
  exact ⟨fun h => ⟨h.1, h.2.1, h.2.2⟩, fun h => ⟨h.accepted, h.audited, h.few⟩⟩

variable (p order) in
/-- The mailboxes that a service and the original one compare passwords with. -/
inductive KeepsPasswords (service original : Daemon) (address : Text) : Prop
  | absent (hnone : mailboxAuth p order service (normalizeAddress p address) = none)
      (hnever : mailboxAuth p order original (normalizeAddress p address) = none)
  | kept {mailbox first : DaemonMailbox} {apps : List Text}
      (hmailbox : mailboxAuth p order service (normalizeAddress p address) = some (mailbox, apps))
      (hfirst : mailboxAuth p order original (normalizeAddress p address) = some (first, []))
      (hopens : OpensAlike verifies (auditPassdb service) mailbox apps first)

theorem passwordDecision_ne_notFound {audited : Bool} {mailbox : DaemonMailbox}
    {apps : List Text} {secret : Text} :
    passwordDecision verifies audited mailbox apps secret ≠ .notFound := by
  rw [passwordDecision]
  split
  · split <;> simp
  · split <;> simp

variable {verifies} in
theorem keepsPasswords_iff {original : Daemon} (havailable : service.unavailable = false)
    (hready : original.unavailable = false) (haudit : original.audit = none)
    (happs : original.appPasswordVerifiers = ∅) :
    (∀ secret protocol,
      (dovecotPassdb p order service verifies ⟨address, secret, protocol⟩).decision =
        (dovecotPassdb p order original verifies ⟨address, secret, protocol⟩).decision) ↔
      KeepsPasswords p order verifies service original address := by
  have hopen : auditPassdb original = true := by rw [auditPassdb, haudit]; rfl
  have hnone {mailbox : DaemonMailbox} {apps : List Text}
      (hfound : mailboxAuth p order original (normalizeAddress p address) = some (mailbox, apps)) :
      apps = [] := by
    obtain ⟨found, -, hpair⟩ := Option.map_eq_some_iff.mp hfound
    rw [happs, scanned, Order.range_empty, AList.lookup_empty] at hpair
    exact (congrArg Prod.snd hpair).symm
  constructor
  · intro halike
    have hmail (secret : Text) := halike secret (ascii "imap")
    have hdecides {daemon : Daemon} (hdaemon : daemon.unavailable = false) (secret : Text) :=
      @dovecotPassdb_decision p order daemon verifies ⟨address, secret, ascii "imap"⟩ hdaemon
        (.inl rfl)
    simp only [hdecides havailable, hdecides hready, hopen] at hmail
    cases hfound : mailboxAuth p order service (normalizeAddress p address) with
    | none =>
      cases hfirst : mailboxAuth p order original (normalizeAddress p address) with
      | none => exact .absent hfound hfirst
      | some first =>
        simp only [hfound, hfirst, Option.elim] at hmail
        exact absurd (hmail []).symm (passwordDecision_ne_notFound verifies)
    | some found =>
      cases hfirst : mailboxAuth p order original (normalizeAddress p address) with
      | none =>
        simp only [hfound, hfirst, Option.elim] at hmail
        exact absurd (hmail []) (passwordDecision_ne_notFound verifies)
      | some first =>
        obtain ⟨first, apps⟩ := first
        cases hnone hfirst
        simp only [hfound, hfirst, Option.elim] at hmail
        exact .kept hfound hfirst ((passwordDecision_eq_iff verifies).mp hmail)
  · intro hkeeps secret protocol
    by_cases hprotocol : protocol = ascii "imap" ∨ protocol = ascii "submission"
    · rw [dovecotPassdb_decision verifies havailable hprotocol,
        dovecotPassdb_decision verifies hready hprotocol, hopen]
      cases hkeeps with
      | absent hfound hfirst =>
        rw [hfound, hfirst]
        rfl
      | kept hfound hfirst hopens =>
        rw [hfound, hfirst]
        exact (passwordDecision_eq_iff verifies).mpr hopens secret
    · rw [dovecotPassdb, dovecotPassdb, havailable, hready, if_neg Bool.false_ne_true,
        if_neg Bool.false_ne_true, if_pos (by tauto), if_pos (by tauto)]

end Daemon

section Verification

variable {Policy : Type} (p : Platform) (order : Order Text)

def failedBackup (ref : Text) (artifact : BackupArtifact Policy)
    (restoredRef : Text) (report : FailureReport) : Backup :=
  ⟨.failed, ref, artifact.schemaVersion, artifact.configSetID, restoredRef, some report⟩

/-- The first address of a mailbox that a service does not accept. -/
def refusedMailbox (artifact : BackupArtifact Policy) (service : Daemon) :
    Option DaemonResponse :=
  ((order.arrange artifact.mailboxes.keys).map
    (Daemon.postfixRecipient p order service)).find? fun response => response.decision != .ok

def checkRestored (ref : Text) (artifact : BackupArtifact Policy)
    (restored : RestoredBackup × Option Text) : Backup :=
  match restored.2 with
  | some reason => failedBackup ref artifact restored.1.ref ⟨ascii "isolated_restore", reason, ascii
        "restore into isolated empty database/container and rerun migrations", true⟩
  | none =>
    if artifact.outboundPolicy.isSome && !restored.1.policyVerified then
      failedBackup ref artifact restored.1.ref ⟨ascii "outbound_policy_restore",
          ascii "outbound policy and queue state were not verified", ascii
          "restore the artifact into an isolated migrated PostgreSQL database", true⟩
    else
      match refusedMailbox p order artifact restored.1.service with
      | some response => failedBackup ref artifact restored.1.ref
          ⟨ascii "daemon_contract", ascii response.reason, ascii
            "restore canonical mailbox/domain state before marking backup verified", true⟩
      | none => ⟨.verified, ref, artifact.schemaVersion, artifact.configSetID, restored.1.ref, none⟩

def verifyBackupWithRestore (storage : Text → Except Text (BackupArtifact Policy))
    (ref : Text) (engine : Option (RestoreEngine Policy)) : Backup :=
  match storage ref with
  | .error reason => ⟨.failed, ref, [], [], [], some ⟨ascii "storage_read", reason,
      ascii "capture backup through configured storage plugin before verify", false⟩⟩
  | .ok artifact =>
    if artifact.schemaVersion = [] ∨ artifact.configSetID = [] ∨ artifact.mailboxes.keys = [] then
      failedBackup ref artifact [] ⟨ascii "restored_state",
        ascii "backup missing schema/config/mailbox state", ascii
        "restore a complete backup artifact into isolated state before verification", false⟩
    else
      checkRestored p order ref artifact (engine.getD localContractRestore artifact)

/-- A service accepts every mailbox address of an artifact. -/
def AcceptsAll (artifact : BackupArtifact Policy) (service : Daemon) : Prop :=
  ∀ address ∈ artifact.mailboxes.keys,
    (Daemon.postfixRecipient p order service address).decision = .ok

variable (verifies : Text → Text → Bool)

/-- Two services decide alike on an address. -/
structure DecidesAlike (first second : Daemon) (address : Text) : Prop where
  recipient : (Daemon.postfixRecipient p order first address).decision =
    (Daemon.postfixRecipient p order second address).decision
  aliased : (Daemon.postfixAlias p order first address).decision =
    (Daemon.postfixAlias p order second address).decision
  passdb : ∀ secret protocol, (Daemon.dovecotPassdb p order first verifies
        ⟨address, secret, protocol⟩).decision =
      (Daemon.dovecotPassdb p order second verifies ⟨address, secret, protocol⟩).decision

/-- The engine has restored a service that decides as the artifact's own on all
of its addresses. -/
def Faithful (artifact : BackupArtifact Policy) (restored : RestoredBackup × Option Text) : Prop :=
  restored.2 = none ∧
    ∀ address, address ∈ artifact.mailboxes.keys ∨ address ∈ artifact.aliases.keys →
      DecidesAlike p order verifies restored.1.service artifact.service address

end Verification

section Exactness

variable {Policy : Type} {p : Platform} {order : Order Text}
  {verifies : Text → Text → Bool} {artifact : BackupArtifact Policy}
  {restored : RestoredBackup × Option Text} {ref : Text}

theorem refusedMailbox_eq_none_iff {service : Daemon} :
    refusedMailbox p order artifact service = none ↔
      AcceptsAll p order artifact service := by
  rw [refusedMailbox, List.find?_eq_none, List.forall_mem_map]
  simp only [bne_iff_ne, ne_eq, not_not]
  exact ⟨fun haccepts address haddress => haccepts address ((order.perm _).mem_iff.mpr haddress),
    fun haccepts address haddress => haccepts address ((order.perm _).mem_iff.mp haddress)⟩

/-- A backup is verified when the restored service accepts its mailboxes. -/
theorem checkRestored_verified_iff (hpolicy : artifact.outboundPolicy = none) :
    (checkRestored p order ref artifact restored).status = .verified ↔
      restored.2 = none ∧ AcceptsAll p order artifact restored.1.service := by
  rw [← refusedMailbox_eq_none_iff, checkRestored]
  cases herror : restored.2 with
  | some reason => simp [failedBackup]
  | none =>
    simp only [hpolicy, Option.isSome_none, Bool.false_and, Bool.false_eq_true, if_false, true_and]
    cases refusedMailbox p order artifact restored.1.service with
    | some response => simp [failedBackup]
    | none => simp

variable (p order verifies artifact restored) in
/-- The restored service has the flags of the artifact at all addresses of the artifact, for
mailboxes and for aliases, and verifiers that accept the same passwords. -/
structure RestoreAgrees : Prop where
  finished : restored.2 = none
  available : restored.1.service.unavailable = false
  recipients : ∀ address, address ∈ artifact.mailboxes.keys ∨ address ∈ artifact.aliases.keys →
    restored.1.service.recipientFlag p order address =
      artifact.service.recipientFlag p order address
  aliases : ∀ address, address ∈ artifact.mailboxes.keys ∨ address ∈ artifact.aliases.keys →
    restored.1.service.aliasFlag p order address = artifact.service.aliasFlag p order address
  passwords : ∀ address, address ∈ artifact.mailboxes.keys ∨ address ∈ artifact.aliases.keys →
    Daemon.KeepsPasswords p order verifies restored.1.service artifact.service address

variable (p order artifact) in
/-- At every mailbox address of an artifact a service has an enabled mailbox, or an enabled
alias where it has no mailbox. -/
def RestoreServes (service : Daemon) : Prop :=
  service.unavailable = false ∧
    ∀ address ∈ artifact.mailboxes.keys, service.recipientFlag p order address = some true

theorem available_of_recipient {service : Daemon} {address : Text}
    (hdecision : (service.postfixRecipient p order address).decision ≠ .defer) :
    service.unavailable = false := by
  by_contra hunavailable
  rw [Bool.not_eq_false] at hunavailable
  exact hdecision (by rw [Daemon.postfixRecipient, hunavailable, if_pos rfl]; rfl)

theorem flagged_eq_ok {flag : Option Bool} : Daemon.flagged flag = .ok ↔ flag = some true := by
  rcases flag with _ | _ | _ <;> simp [Daemon.flagged]

theorem acceptsAll_iff {service : Daemon} (hmailboxes : artifact.mailboxes.keys ≠ []) :
    AcceptsAll p order artifact service ↔ RestoreServes p order artifact service := by
  obtain ⟨first, hfirst⟩ := List.exists_mem_of_ne_nil _ hmailboxes
  constructor
  · intro haccepts
    have hdecided : (service.postfixRecipient p order first).decision ≠ .defer := by
      rw [haccepts first hfirst]
      decide
    have havailable := available_of_recipient hdecided
    refine ⟨havailable, fun address haddress => flagged_eq_ok.mp ?_⟩
    rw [← Daemon.postfixRecipient_decision havailable]
    exact haccepts address haddress
  · rintro ⟨havailable, hserves⟩ address haddress
    rw [Daemon.postfixRecipient_decision havailable, flagged_eq_ok]
    exact hserves address haddress

theorem faithful_iff (hmailboxes : artifact.mailboxes.keys ≠ []) :
    Faithful p order verifies artifact restored ↔
      RestoreAgrees p order verifies artifact restored := by
  obtain ⟨first, hfirst⟩ := List.exists_mem_of_ne_nil _ hmailboxes
  have hready : artifact.service.unavailable = false := rfl
  constructor
  · rintro ⟨hfinished, halike⟩
    have hdecided : (restored.1.service.postfixRecipient p order first).decision ≠ .defer := by
      rw [(halike first (.inl hfirst)).recipient, Daemon.postfixRecipient_decision hready]
      generalize artifact.service.recipientFlag p order first = flag
      rcases flag with _ | _ | _ <;> decide
    have havailable := available_of_recipient hdecided
    refine ⟨hfinished, havailable, ?_, ?_, ?_⟩ <;> intro address haddress
    · rw [← Daemon.flagged_inj, ← Daemon.postfixRecipient_decision havailable,
        ← Daemon.postfixRecipient_decision hready]
      exact (halike address haddress).recipient
    · rw [← Daemon.flagged_inj, ← Daemon.postfixAlias_decision havailable,
        ← Daemon.postfixAlias_decision hready]
      exact (halike address haddress).aliased
    · exact (Daemon.keepsPasswords_iff havailable hready rfl rfl).mp
        (halike address haddress).passdb
  · intro hagrees
    refine ⟨hagrees.finished, fun address haddress => ⟨?_, ?_, ?_⟩⟩
    · rw [Daemon.postfixRecipient_decision hagrees.available,
        Daemon.postfixRecipient_decision hready, hagrees.recipients address haddress]
    · rw [Daemon.postfixAlias_decision hagrees.available, Daemon.postfixAlias_decision hready,
        hagrees.aliases address haddress]
    · exact (Daemon.keepsPasswords_iff hagrees.available hready rfl rfl).mpr
        (hagrees.passwords address haddress)

variable (p order verifies) in
/-- A backup is reported verified exactly when the restored service decides as the artifact's
own. -/
def VerifiesExactly (storage : Text → Except Text (BackupArtifact Policy)) (ref : Text)
    (engine : Option (RestoreEngine Policy)) (artifact : BackupArtifact Policy) : Prop :=
  (verifyBackupWithRestore p order storage ref engine).status = .verified ↔
    Faithful p order verifies artifact (engine.getD localContractRestore artifact)

variable {storage : Text → Except Text (BackupArtifact Policy)}
  {engine : Option (RestoreEngine Policy)}

theorem verifiesExactly_iff (hread : storage ref = .ok artifact)
    (hschema : artifact.schemaVersion ≠ []) (hconfig : artifact.configSetID ≠ [])
    (hmailboxes : artifact.mailboxes.keys ≠ []) (hpolicy : artifact.outboundPolicy = none) :
    VerifiesExactly p order verifies storage ref engine artifact ↔
      (RestoreAgrees p order verifies artifact (engine.getD localContractRestore artifact) →
        ∀ address ∈ artifact.mailboxes.keys,
          artifact.service.recipientFlag p order address = some true) ∧
      ((engine.getD localContractRestore artifact).2 = none →
        RestoreServes p order artifact (engine.getD localContractRestore artifact).1.service →
        RestoreAgrees p order verifies artifact (engine.getD localContractRestore artifact)) := by
  let restored := engine.getD localContractRestore artifact
  have hstatus : (verifyBackupWithRestore p order storage ref engine).status = .verified ↔
        restored.2 = none ∧ RestoreServes p order artifact restored.1.service := by
    rw [verifyBackupWithRestore, hread, ← acceptsAll_iff hmailboxes]
    dsimp only
    rw [if_neg (by simp [hschema, hconfig, hmailboxes])]
    exact checkRestored_verified_iff hpolicy
  rw [VerifiesExactly, hstatus, faithful_iff hmailboxes]
  constructor
  · intro hexact
    refine ⟨fun hagrees address haddress => ?_, fun hnone hserves => hexact.mp ⟨hnone, hserves⟩⟩
    rw [← hagrees.recipients address (.inl haddress)]
    exact (hexact.mpr hagrees).2.2 address haddress
  · rintro ⟨hcomplete, hsound⟩
    refine ⟨fun hserves => hsound hserves.1 hserves.2, fun hagrees => ?_⟩
    refine ⟨hagrees.finished, hagrees.available, fun address haddress => ?_⟩
    rw [hagrees.recipients address (.inl haddress)]
    exact hcomplete hagrees address haddress

end Exactness

namespace MailTables

variable (tables : MailTables)

def insertDomain (row : DomainEntry) : Option MailTables := do
  let domains ← tables.domains.insert row >>= Constrained.accept
  return { tables with domains := domains }

/-- The statement that mailboxes and aliases share. -/
def insertAddress (row : AddressEntry) (table : AddressEntries) : Option AddressEntries :=
  if storable row.localPart && row.contents.all storable then
    table.insert row >>= Constrained.accept
  else none

def insertMailbox (row : AddressEntry) : Option MailTables := do
  let mailboxes ← insertAddress row tables.mailboxes
  return { tables with mailboxes := mailboxes }

def insertAlias (row : AddressEntry) : Option MailTables := do
  let aliases ← insertAddress row tables.aliases
  return { tables with aliases := aliases }

end MailTables

/-- The text under which an entry of a map goes when it has none of its own. -/
def ownOr (own key : Text) : Text := if own = [] then key else own

namespace ImportSite

variable {Policy : Type} (site : ImportSite) (refuses : ImportStep → Bool) (now : Time)

/-- The domains of a restore, whose flag is that of the first one of a name. -/
def ensureRestored (domain : Text) (enabled : Bool) : Effect ImportTx Text Text := do
  let name := Daemon.normalizeDomain site.platform domain
  Effect.guard (validateDomainName site.platform name) (ascii "invalid restored domain: " ++ name)
  let known ← Effect.ask fun tx => tx.domainIDs.lookup name
  match known with
  | some id => return id
  | none =>
    let id ← Effect.ask fun tx => site.newUUID tx.step
    site.execute refuses fun _ tables => tables.insertDomain ⟨id, name, enabled, now, now⟩
    alter fun tx => { tx with domainIDs := tx.domainIDs.insert name id }
    return id

/-- What the loops over mailboxes and over aliases share. -/
def restoreAddress (kind : String) (insert : MailTables → AddressEntry → Option MailTables)
    (address : Text) (enabled : Bool) (contents : Option Text) : Effect ImportTx Text Unit := do
  let parsed ← need (site.platform.parseAddress (site.platform.lower address))
    (ascii "mail: invalid address")
  let (localPart, domain) ← need (splitAddress parsed.address)
    (ascii ("invalid restored " ++ kind ++ ": ") ++ address)
  let domainID ← site.ensureRestored refuses now domain true
  site.execute refuses fun id tables =>
    insert tables ⟨id, domainID, localPart, enabled, contents, now, now⟩

def restoreMailbox (entry : Text × DaemonMailbox) : Effect ImportTx Text Unit :=
  site.restoreAddress refuses now "mailbox" MailTables.insertMailbox (ownOr entry.2.address entry.1)
    entry.2.enabled (nullString entry.2.verifier)

def restoreAlias (entry : Text × DaemonAlias) : Effect ImportTx Text Unit :=
  site.restoreAddress refuses now "alias" MailTables.insertAlias (ownOr entry.2.address entry.1)
    entry.2.enabled (some (marshal (.array (entry.2.targets.map .string))))

def restoreRows (artifact : BackupArtifact Policy) : Effect ImportTx Text Unit := do
  (site.order.range artifact.domains).forM fun entry => do
    let _ ← site.ensureRestored refuses now (ownOr entry.2.name entry.1) entry.2.enabled
    return ()
  (site.order.range artifact.mailboxes).forM (site.restoreMailbox refuses now)
  (site.order.range artifact.aliases).forM (site.restoreAlias refuses now)

/-- The tables of a restore into empty ones; an outbound policy comes with its own. -/
def restoredTables (restorePolicy : Policy → Except Text MailTables)
    (artifact : BackupArtifact Policy) : Except Text MailTables :=
  match artifact.outboundPolicy with
  | some policy => restorePolicy policy
  | none =>
    match site.restoreRows refuses now artifact ⟨.empty, ∅, 0⟩ with
    | (.ok _, tx) => .ok tx.tables
    | (.error reason, _) => .error reason

def restoreArtifactToSQL (restorePolicy : Policy → Except Text MailTables)
    (artifact : BackupArtifact Policy) : Except Text MailTables := do
  allowed? refuses .begin
  let tables ← site.restoredTables refuses now restorePolicy artifact
  allowed? refuses .commit
  return tables

/-- The restore into an isolated database, if there is one, that can be migrated. -/
def sqlIsolatedRestore (restorePolicy : Policy → Except Text MailTables) (connected : Bool)
    (migrated : Except Text Unit) (ref : Text) : RestoreEngine Policy := fun artifact =>
  let restored : Except Text MailTables :=
    if connected then do
      migrated
      let tables ← site.restoreArtifactToSQL refuses now restorePolicy artifact
      allowed? refuses .load
      return tables
    else .error (ascii "isolated_restore_db_required")
  match restored with
  | .error reason => (⟨[], .fresh, false⟩, some reason)
  | .ok tables => (⟨if ref = [] then ascii "sql-isolated-restore" else ref,
      loadDaemonServiceFromSQL site.platform tables, true⟩, none)

end ImportSite

section Restoring

variable {Policy : Type} {site : ImportSite} {refuses : ImportStep → Bool} {now : Time}
  {tx after : ImportTx}

/-- What a row of mailboxes or aliases holds for the service that is loaded. -/
abbrev Holding := Text × Bool × Option Text

/-- The rows of a table stand for entries, in the order in which they were inserted. -/
def Mirrors (p : Platform) (tables : MailTables) (rows : List AddressEntry)
    (entries : List Holding) : Prop :=
  List.Forall₂ (fun row entry => rowAddress p tables row = some entry.1 ∧
    row.enabled = entry.2.1 ∧ row.contents = entry.2.2) rows entries

variable (site) in
/-- A restore that has inserted some mailboxes and some aliases. -/
structure Restoring (mailboxes aliases : List Holding) (tx : ImportTx) : Prop where
  known : ∀ name id, tx.domainIDs.lookup name = some id →
    ∃ row ∈ tx.tables.domains.rows, row.id = id ∧ row.name = name
  mailboxes : Mirrors site.platform tx.tables tx.tables.mailboxes.rows mailboxes
  aliases : Mirrors site.platform tx.tables tx.tables.aliases.rows aliases

theorem Mirrors.grows {tables next : MailTables} {rows : List AddressEntry}
    {entries : List Holding} (hmirrors : Mirrors site.platform tables rows entries)
    (hdomains : ∀ row ∈ tables.domains.rows, row ∈ next.domains.rows) :
    Mirrors site.platform next rows entries := by
  refine hmirrors.imp fun row entry hrow => ⟨?_, hrow.2⟩
  obtain ⟨domain, hfind, haddress⟩ := Option.map_eq_some_iff.mp hrow.1
  obtain ⟨hmem, hid⟩ := Table.find?_eq_some_iff.mp hfind
  rw [rowAddress, Table.find?_eq_some_iff.mpr ⟨hdomains domain hmem, hid⟩, Option.map_some,
    haddress]

variable {mailboxes aliases : List Holding}

theorem Restoring.ensureRestored {domain id : Text} {enabled : Bool}
    (hrestoring : Restoring site mailboxes aliases tx)
    (hensure : site.ensureRestored refuses now domain enabled tx = (.ok id, after)) :
    Restoring site mailboxes aliases after ∧ ∃ row ∈ after.tables.domains.rows,
      row.id = id ∧ row.name = Daemon.normalizeDomain site.platform domain := by
  simp only [ImportSite.ensureRestored, Effect.bind_ok_iff, guard_ok_iff, ask_ok_iff] at hensure
  obtain ⟨_, _, ⟨-, rfl⟩, known, _, ⟨hknown, rfl⟩, hrest⟩ := hensure
  cases known with
  | some found =>
    obtain ⟨rfl, rfl⟩ := Effect.pure_ok_iff.mp hrest
    exact ⟨hrestoring, hrestoring.known _ _ hknown⟩
  | none =>
    simp only [Effect.bind_ok_iff, ask_ok_iff, alter_ok_iff, Effect.pure_ok_iff] at hrest
    obtain ⟨_, _, ⟨rfl, rfl⟩, _, _, hexecute, _, _, rfl, rfl, rfl⟩ := hrest
    obtain ⟨tables, hinsert, rfl⟩ := execute_ok hexecute
    obtain ⟨domains, hdomains, htables⟩ := Option.bind_eq_some_iff.mp hinsert
    cases htables
    obtain ⟨table, htable, haccept⟩ := Option.bind_eq_some_iff.mp hdomains
    have hrows := (Table.insert_eq_some_iff.mp htable).2
    rw [← Constrained.accept_eq_some_iff.mp haccept] at hrows
    have hgrown : ∀ row ∈ tx.tables.domains.rows, row ∈ domains.rows := by
      intro row hrow
      rw [hrows]
      exact List.mem_append_left _ hrow
    have hnew : ⟨site.newUUID tx.step, Daemon.normalizeDomain site.platform domain, enabled, now,
        now⟩ ∈ domains.rows := by
      rw [hrows]
      exact List.mem_append_right _ List.mem_cons_self
    refine ⟨⟨?_, hrestoring.mailboxes.grows hgrown, hrestoring.aliases.grows hgrown⟩,
      _, hnew, rfl, rfl⟩
    intro name id hlookup
    rw [lookup_insert_eq] at hlookup
    split at hlookup
    · next hsame =>
        cases hlookup
        exact ⟨_, hnew, rfl, hsame.symm⟩
    · obtain ⟨row, hrow, hid⟩ := hrestoring.known name id hlookup
      exact ⟨row, hgrown row hrow, hid⟩

variable (site) in
/-- An address as it is looked up, whose domain is as it is stored. -/
structure PlainAddress (address : Text) : Prop where
  present : address ≠ []
  lower : site.platform.lower address = address
  trimmed : trimSpace address = address
  parsed : ∃ parsed, site.platform.parseAddress address = some parsed ∧ parsed.address = address
  domain : ∀ parts, cutAddress address = some parts →
    Daemon.normalizeDomain site.platform parts.2 = parts.2

theorem cutAddress_eq {address localPart domain : Text}
    (hcut : cutAddress address = some (localPart, domain)) :
    localPart ++ atSign :: domain = address := by
  unfold cutAddress at hcut
  split at hcut
  · cases hcut
  · next byte rest hdrop =>
      cases hcut
      have hbyte : byte = atSign := by
        have hhead := List.head?_dropWhile_not (· != atSign) address
        rw [hdrop] at hhead
        simpa using hhead
      rw [hbyte] at hdrop
      rw [← hdrop, List.takeWhile_append_dropWhile]

theorem insertAddress_rows {row : AddressEntry} {table next : AddressEntries}
    (hinsert : MailTables.insertAddress row table = some next) :
    next.rows = table.rows ++ [row] := by
  unfold MailTables.insertAddress at hinsert
  split at hinsert
  · obtain ⟨added, hadded, haccept⟩ := Option.bind_eq_some_iff.mp hinsert
    rw [Constrained.accept_eq_some_iff.mp haccept]
    exact (Table.insert_eq_some_iff.mp hadded).2
  · cases hinsert

theorem Restoring.restoreAddress {kind : String} {address : Text} {enabled : Bool}
    {contents : Option Text} {insert : MailTables → AddressEntry → Option MailTables}
    (hrestoring : Restoring site mailboxes aliases tx) (hplain : PlainAddress site address)
    (hrestore : site.restoreAddress refuses now kind insert address enabled contents tx =
      (.ok (), after)) :
    ∃ middle row tables, Restoring site mailboxes aliases middle ∧
      insert middle.tables row = some tables ∧
      after = { middle with tables := tables, step := middle.step + 1 } ∧
      rowAddress site.platform middle.tables row = some address ∧
      row.enabled = enabled ∧ row.contents = contents := by
  simp only [ImportSite.restoreAddress, Effect.bind_ok_iff, need_ok_iff] at hrestore
  obtain ⟨parsed, _, ⟨hparsed, rfl⟩, ⟨localPart, domain⟩, _, ⟨hsplit, rfl⟩, domainID, middle,
    hensure, hexecute⟩ := hrestore
  obtain ⟨tables, hinsert, rfl⟩ := execute_ok hexecute
  obtain ⟨hmiddle, row, hrow, hid, hname⟩ := hrestoring.ensureRestored hensure
  obtain ⟨original, horiginal, hsame⟩ := hplain.parsed
  rw [hplain.lower, horiginal] at hparsed
  cases hparsed
  rw [hsame] at hsplit
  have hcut := (Option.filter_eq_some_iff.mp hsplit).1
  refine ⟨middle, _, tables, hmiddle, hinsert, rfl, ?_, rfl, rfl⟩
  rw [rowAddress, Table.find?_eq_some_iff.mpr ⟨hrow, hid⟩, Option.map_some, hname,
    hplain.domain _ hcut, cutAddress_eq hcut, hplain.lower]

variable (site) in
/-- An artifact whose mailboxes and aliases stand under their addresses. -/
structure BackupArtifact.Plain (artifact : BackupArtifact Policy) : Prop where
  mailboxes : ∀ key mailbox, artifact.mailboxes.lookup key = some mailbox →
    PlainAddress site key ∧ ownOr mailbox.address key = key
  aliases : ∀ key found, artifact.aliases.lookup key = some found →
    PlainAddress site key ∧ ownOr found.address key = key

def mailboxHolding (entry : Text × DaemonMailbox) : Holding :=
  (entry.1, entry.2.enabled, nullString entry.2.verifier)

def aliasHolding (entry : Text × DaemonAlias) : Holding :=
  (entry.1, entry.2.enabled, some (marshal (.array (entry.2.targets.map .string))))

theorem restoreMailbox_round {entry : Text × DaemonMailbox} (haddress : PlainAddress site entry.1)
    (hown : ownOr entry.2.address entry.1 = entry.1) :
    (site.restoreMailbox refuses now entry).Triple (Restoring site mailboxes aliases)
      (fun _ => Restoring site (mailboxes ++ [mailboxHolding entry]) aliases) fun _ => True := by
  refine Triple.of_returned fun tx _ after hrestoring hrestore => ?_
  rw [ImportSite.restoreMailbox, hown] at hrestore
  obtain ⟨middle, row, tables, hmiddle, hinsert, rfl, hrow⟩ :=
    hrestoring.restoreAddress haddress hrestore
  obtain ⟨inserted, hinserted, htables⟩ := Option.bind_eq_some_iff.mp hinsert
  cases htables
  refine ⟨hmiddle.known, ?_, hmiddle.aliases⟩
  change Mirrors _ _ inserted.rows _
  rw [insertAddress_rows hinserted]
  exact List.rel_append hmiddle.mailboxes (.cons hrow .nil)

theorem restoreAlias_round {entry : Text × DaemonAlias} (haddress : PlainAddress site entry.1)
    (hown : ownOr entry.2.address entry.1 = entry.1) :
    (site.restoreAlias refuses now entry).Triple (Restoring site mailboxes aliases)
      (fun _ => Restoring site mailboxes (aliases ++ [aliasHolding entry])) fun _ => True := by
  refine Triple.of_returned fun tx _ after hrestoring hrestore => ?_
  rw [ImportSite.restoreAlias, hown] at hrestore
  obtain ⟨middle, row, tables, hmiddle, hinsert, rfl, hrow⟩ :=
    hrestoring.restoreAddress haddress hrestore
  obtain ⟨inserted, hinserted, htables⟩ := Option.bind_eq_some_iff.mp hinsert
  cases htables
  refine ⟨hmiddle.known, hmiddle.mailboxes, ?_⟩
  change Mirrors _ _ inserted.rows _
  rw [insertAddress_rows hinserted]
  exact List.rel_append hmiddle.aliases (.cons hrow .nil)

variable (site) in
/-- The tables have one row for each mailbox and each alias of an artifact. -/
structure Mirrored (artifact : BackupArtifact Policy) (tables : MailTables) : Prop where
  mailboxes : Mirrors site.platform tables tables.mailboxes.rows
    ((site.order.range artifact.mailboxes).map mailboxHolding)
  aliases : Mirrors site.platform tables tables.aliases.rows
    ((site.order.range artifact.aliases).map aliasHolding)

variable {artifact : BackupArtifact Policy}

theorem restoreRows_mirrored (hplain : artifact.Plain site)
    (hrestore : site.restoreRows refuses now artifact ⟨.empty, ∅, 0⟩ = (.ok (), after)) :
    Mirrored site artifact after.tables := by
  have hempty : Restoring site [] [] ⟨.empty, ∅, 0⟩ :=
    ⟨fun _ _ hlookup => (by cases hlookup), .nil, .nil⟩
  simp only [ImportSite.restoreRows, Effect.bind_ok_iff] at hrestore
  obtain ⟨_, first, hdomains, _, second, hmailboxes, haliases⟩ := hrestore
  have hfirst : Restoring site [] [] first := by
    refine Triple.returned (Triple.forM fun entry _ => Triple.of_returned ?_) hempty hdomains
    intro tx _ after hrestoring hensure
    simp only [Effect.bind_ok_iff, Effect.pure_ok_iff] at hensure
    obtain ⟨_, _, hensure, -, rfl⟩ := hensure
    exact (hrestoring.ensureRestored hensure).1
  have hmailbox : ∀ done, ∀ entry ∈ site.order.range artifact.mailboxes,
      (site.restoreMailbox refuses now entry).Triple (Restoring site (done.map mailboxHolding) [])
        (fun _ => Restoring site ((done ++ [entry]).map mailboxHolding) []) fun _ => True := by
    intro done entry hentry
    obtain ⟨haddress, hown⟩ := hplain.mailboxes _ _ (site.order.mem_range.mp hentry)
    rw [List.map_append]
    exact restoreMailbox_round haddress hown
  have hsecond := (Triple.forM_done hmailbox []).returned hfirst hmailboxes
  have halias {held : List Holding} : ∀ done, ∀ entry ∈ site.order.range artifact.aliases,
      (site.restoreAlias refuses now entry).Triple (Restoring site held (done.map aliasHolding))
        (fun _ => Restoring site held ((done ++ [entry]).map aliasHolding)) fun _ => True := by
    intro done entry hentry
    obtain ⟨haddress, hown⟩ := hplain.aliases _ _ (site.order.mem_range.mp hentry)
    rw [List.map_append]
    exact restoreAlias_round haddress hown
  have hrestored := (Triple.forM_done halias []).returned hsecond haliases
  exact ⟨hrestored.mailboxes, hrestored.aliases⟩

theorem Mirrors.loaded {ω : Type} {tables : MailTables} {rows : List AddressEntry}
    {entries : List Holding} (hmirrors : Mirrors site.platform tables rows entries)
    (read : Text → Bool → Option Text → ω) :
    rows.filterMap (fun row => (rowAddress site.platform tables row).map fun address =>
        (address, read address row.enabled row.contents)) =
      entries.map fun entry => (entry.1, read entry.1 entry.2.1 entry.2.2) := by
  induction hmirrors with
  | nil => rfl
  | cons hrow _ ih =>
    rw [List.filterMap_cons, hrow.1, hrow.2.1, hrow.2.2, ih]
    rfl

/-- What is loaded after a restore of a plain artifact. -/
theorem Mirrored.lookup {tables : MailTables} (hmirrored : Mirrored site artifact tables)
    (address : Text) :
    (loadDaemonServiceFromSQL site.platform tables).mailboxes.lookup address =
        (artifact.mailboxes.lookup address).map (fun mailbox =>
          ⟨address, mailbox.enabled, mailbox.verifier⟩) ∧
      (loadDaemonServiceFromSQL site.platform tables).aliases.lookup address =
        (artifact.aliases.lookup address).map fun found => ⟨address, found.enabled,
          (site.platform.decodeStrings (marshal (.array (found.targets.map .string)))).getD []⟩ := by
  have hverifier (verifier : Text) : (nullString verifier).getD [] = verifier := by
    rw [nullString]
    split
    · next hempty => exact hempty.symm
    · rfl
  constructor
  · rw [← lookup_fill_range site.order artifact.mailboxes fun address mailbox =>
        (⟨address, mailbox.enabled, mailbox.verifier⟩ : DaemonMailbox), loadDaemonServiceFromSQL,
      hmirrored.mailboxes.loaded fun address enabled contents =>
        (⟨address, enabled, contents.getD []⟩ : DaemonMailbox), List.map_map]
    simp only [Function.comp_def, mailboxHolding, hverifier]
  · rw [← lookup_fill_range site.order artifact.aliases fun address found =>
        (⟨address, found.enabled, (site.platform.decodeStrings
          (marshal (.array (found.targets.map .string)))).getD []⟩ : DaemonAlias),
      loadDaemonServiceFromSQL, hmirrored.aliases.loaded fun address enabled contents =>
        (⟨address, enabled, (contents.bind site.platform.decodeStrings).getD []⟩ : DaemonAlias),
      List.map_map]
    simp only [Function.comp_def, aliasHolding, Option.bind_some]

end Restoring

namespace Daemon

variable {p : Platform} {order : Order Text} {service : Daemon} {address : Text}

variable (p service) in
/-- A service whose mailboxes and aliases stand under their normalized addresses. -/
structure Addressed : Prop where
  mailboxes : ∀ key mailbox, service.mailboxes.lookup key = some mailbox →
    normalizeAddress p key = key ∧ ownOr mailbox.address key = key
  aliases : ∀ key found, service.aliases.lookup key = some found →
    normalizeAddress p key = key ∧ ownOr found.address key = key

theorem mailboxView_lookup (haddressed : service.Addressed p) :
    (mailboxView p order service).lookup address =
      (service.mailboxes.lookup address).map fun mailbox =>
        if mailbox.address = [] then { mailbox with address := address } else mailbox := by
  rw [← lookup_fill_range order service.mailboxes fun address mailbox =>
    if mailbox.address = [] then { mailbox with address := address } else mailbox, mailboxView]
  congr 2
  apply List.map_congr_left
  rintro ⟨key, mailbox⟩ hmem
  obtain ⟨hkey, hown⟩ := haddressed.mailboxes key mailbox (order.mem_range.mp hmem)
  unfold ownOr at hown
  dsimp only
  split at hown
  · next hempty => rw [if_pos hempty, hkey]
  · next hnamed => rw [if_neg hnamed, hown, hkey]

theorem aliasView_lookup (haddressed : service.Addressed p) :
    (aliasView p order service).lookup address = (service.aliases.lookup address).map fun found =>
      if found.address = [] then { found with address := address } else found := by
  rw [← lookup_fill_range order service.aliases fun address found =>
    if found.address = [] then { found with address := address } else found, aliasView]
  congr 2
  apply List.map_congr_left
  rintro ⟨key, found⟩ hmem
  obtain ⟨hkey, hown⟩ := haddressed.aliases key found (order.mem_range.mp hmem)
  unfold ownOr at hown
  dsimp only
  split at hown
  · next hempty => rw [if_pos hempty, hkey]
  · next hnamed => rw [if_neg hnamed, hown, hkey]

theorem aliasFlag_eq (haddressed : service.Addressed p)
    (haddress : normalizeAddress p address = address) :
    aliasFlag p order service address =
      (service.aliases.lookup address).map DaemonAlias.enabled := by
  rw [aliasFlag, haddress, aliasView_lookup haddressed, Option.map_map]
  congr 1
  funext found
  dsimp only [Function.comp_apply]
  split <;> rfl

theorem recipientFlag_eq (haddressed : service.Addressed p)
    (haddress : normalizeAddress p address = address) :
    recipientFlag p order service address =
      ((service.mailboxes.lookup address).map DaemonMailbox.enabled).or
        ((service.aliases.lookup address).map DaemonAlias.enabled) := by
  unfold recipientFlag
  dsimp only
  rw [haddress, haddress]
  simp only [← AList.lookup_isSome, mailboxView_lookup haddressed, aliasView_lookup haddressed,
    Option.isSome_map]
  cases service.mailboxes.lookup address with
  | some mailbox =>
    simp only [Option.map_some, Option.isSome_some, if_true, Option.some_or]
    split <;> rfl
  | none =>
    cases service.aliases.lookup address with
    | none => rfl
    | some found =>
      simp only [Option.isSome_none, Bool.false_eq_true, if_false, Option.map_none,
        Option.none_or, Option.isSome_some, if_true, Option.map_some]
      split <;> rfl

theorem mailboxAuth_eq (haddressed : service.Addressed p)
    (happs : service.appPasswordVerifiers = ∅) (haddress : normalizeAddress p address = address) :
    mailboxAuth p order service address =
      (service.mailboxes.lookup address).map fun mailbox => (mailbox, []) := by
  have hscanned : (service.mailboxes.lookup address).or
      (scanned p order service.mailboxes address) = service.mailboxes.lookup address := by
    cases hlookup : service.mailboxes.lookup address with
    | some mailbox => rfl
    | none =>
      rw [Option.none_or, scanned, Option.map_eq_none_iff, List.find?_eq_none]
      rintro ⟨key, mailbox⟩ hmem hsame
      rw [order.mem_range] at hmem
      rw [beq_iff_eq, (haddressed.mailboxes key mailbox hmem).1] at hsame
      rw [← hsame, hmem] at hlookup
      cases hlookup
  rw [mailboxAuth, haddress, hscanned, happs, scanned, Order.range_empty]
  rfl

end Daemon

section Engines

variable {Policy : Type} {site : ImportSite} {refuses : ImportStep → Bool} {now : Time}
  {verifies : Text → Text → Bool} {artifact : BackupArtifact Policy}

theorem PlainAddress.normalized {address : Text} (hplain : PlainAddress site address) :
    Daemon.normalizeAddress site.platform address = address := by
  obtain ⟨parsed, hparsed, heq⟩ := hplain.parsed
  rw [Daemon.normalizeAddress, hplain.trimmed, hparsed]
  dsimp only
  rw [heq, hplain.lower]

theorem BackupArtifact.Plain.addressed (hplain : artifact.Plain site) :
    artifact.service.Addressed site.platform where
  mailboxes key mailbox hlookup :=
    have hmailbox := hplain.mailboxes key mailbox hlookup
    ⟨hmailbox.1.normalized, hmailbox.2⟩
  aliases key found hlookup :=
    have halias := hplain.aliases key found hlookup
    ⟨halias.1.normalized, halias.2⟩

theorem BackupArtifact.Plain.normalized (hplain : artifact.Plain site) {address : Text}
    (haddress : address ∈ artifact.mailboxes.keys ∨ address ∈ artifact.aliases.keys) :
    Daemon.normalizeAddress site.platform address = address := by
  rcases haddress with haddress | haddress
  · obtain ⟨mailbox, hlookup⟩ := Option.isSome_iff_exists.mp (AList.lookup_isSome.mpr haddress)
    exact (hplain.mailboxes _ _ hlookup).1.normalized
  · obtain ⟨found, hlookup⟩ := Option.isSome_iff_exists.mp (AList.lookup_isSome.mpr haddress)
    exact (hplain.aliases _ _ hlookup).1.normalized

theorem restoreArtifactToSQL_ok {restorePolicy : Policy → Except Text MailTables}
    {tables : MailTables} (hpolicy : artifact.outboundPolicy = none)
    (hrestore : site.restoreArtifactToSQL refuses now restorePolicy artifact = .ok tables) :
    ∃ after, site.restoreRows refuses now artifact ⟨.empty, ∅, 0⟩ = (.ok (), after) ∧
      after.tables = tables := by
  simp only [ImportSite.restoreArtifactToSQL, except_bind_ok_iff] at hrestore
  obtain ⟨_, -, restored, hrows, _, -, hpure⟩ := hrestore
  cases hpure
  rw [ImportSite.restoredTables, hpolicy] at hrows
  cases hrun : site.restoreRows refuses now artifact ⟨.empty, ∅, 0⟩ with
  | mk result after =>
    rw [hrun] at hrows
    cases result with
    | error reason => cases hrows
    | ok _ =>
      cases hrows
      exact ⟨after, rfl, rfl⟩

/-- A service loaded after a restore of a plain artifact agrees with it. -/
theorem Mirrored.agrees {tables : MailTables} (hmirrored : Mirrored site artifact tables)
    (hplain : artifact.Plain site) (ref : Text) (verified : Bool) :
    RestoreAgrees site.platform site.order verifies artifact
      (⟨ref, loadDaemonServiceFromSQL site.platform tables, verified⟩, none) := by
  have hlookup := hmirrored.lookup
  have hown (address : Text) : ownOr address address = address := by rw [ownOr, ite_self]
  have haddressed : (loadDaemonServiceFromSQL site.platform tables).Addressed site.platform := by
    constructor
    · intro key mailbox hmailbox
      rw [(hlookup key).1, Option.map_eq_some_iff] at hmailbox
      obtain ⟨original, horiginal, rfl⟩ := hmailbox
      exact ⟨(hplain.mailboxes key original horiginal).1.normalized, hown key⟩
    · intro key found hfound
      rw [(hlookup key).2, Option.map_eq_some_iff] at hfound
      obtain ⟨original, horiginal, rfl⟩ := hfound
      exact ⟨(hplain.aliases key original horiginal).1.normalized, hown key⟩
  refine ⟨rfl, rfl, fun address haddress => ?_, fun address haddress => ?_,
    fun address haddress => ?_⟩
  · have hnormal := hplain.normalized haddress
    rw [Daemon.recipientFlag_eq haddressed hnormal,
      Daemon.recipientFlag_eq hplain.addressed hnormal, (hlookup address).1, (hlookup address).2, Option.map_map, Option.map_map]
    rfl
  · have hnormal := hplain.normalized haddress
    rw [Daemon.aliasFlag_eq haddressed hnormal, Daemon.aliasFlag_eq hplain.addressed hnormal,
      (hlookup address).2, Option.map_map]
    rfl
  · have hnormal := hplain.normalized haddress
    have hfound : Daemon.mailboxAuth site.platform site.order _ address = _ :=
      Daemon.mailboxAuth_eq haddressed rfl hnormal
    have hfirst : Daemon.mailboxAuth site.platform site.order _ address = _ :=
      Daemon.mailboxAuth_eq hplain.addressed rfl hnormal
    rw [(hlookup address).1] at hfound
    change _ = Option.map _ (artifact.mailboxes.lookup address) at hfirst
    cases horiginal : artifact.mailboxes.lookup address with
    | none =>
      rw [horiginal] at hfound hfirst
      exact .absent (by rw [hnormal, hfound]; rfl) (by rw [hnormal, hfirst]; rfl)
    | some original =>
      rw [horiginal] at hfound hfirst
      have hopens : Daemon.OpensAlike verifies true
          ⟨address, original.enabled, original.verifier⟩ [] original :=
        ⟨fun _ => rfl, fun _ _ => rfl, fun secret => by simp [Daemon.crowded]⟩
      exact .kept (by rw [hnormal, hfound]; rfl) (by rw [hnormal, hfirst]; rfl) hopens

theorem sqlIsolatedRestore_agrees {restorePolicy : Policy → Except Text MailTables}
    {connected : Bool} {migrated : Except Text Unit} {ref : Text} (hplain : artifact.Plain site)
    (hpolicy : artifact.outboundPolicy = none)
    (hfinished : (site.sqlIsolatedRestore refuses now restorePolicy connected migrated ref
      artifact).2 = none) :
    RestoreAgrees site.platform site.order verifies artifact
      (site.sqlIsolatedRestore refuses now restorePolicy connected migrated ref artifact) := by
  unfold ImportSite.sqlIsolatedRestore at hfinished ⊢
  dsimp only at hfinished ⊢
  split at hfinished
  · cases hfinished
  · next tables hrestored =>
    cases connected with
    | false => cases hrestored
    | true =>
      rw [if_pos rfl] at hrestored
      simp only [except_bind_ok_iff] at hrestored
      obtain ⟨_, -, restored, hrestore, _, -, hpure⟩ := hrestored
      cases hpure
      obtain ⟨after, hrows, rfl⟩ := restoreArtifactToSQL_ok hpolicy hrestore
      exact (restoreRows_mirrored hplain hrows).agrees hplain _ _

variable (site) in
/-- The engines of the source: the one that is taken when none is given, and the isolated
database, whatever its statements answer. -/
inductive SourceEngine : Option (RestoreEngine Policy) → Prop
  | localContract : SourceEngine none
  | sqlIsolated (refuses : ImportStep → Bool) (now : Time)
      (restorePolicy : Policy → Except Text MailTables) (connected : Bool)
      (migrated : Except Text Unit) (ref : Text) : SourceEngine
        (some (site.sqlIsolatedRestore refuses now restorePolicy connected migrated ref))

theorem SourceEngine.agrees {engine : Option (RestoreEngine Policy)}
    (hengine : SourceEngine site engine) (hplain : artifact.Plain site)
    (hmailboxes : artifact.mailboxes.keys ≠ []) (hpolicy : artifact.outboundPolicy = none)
    (hfinished : (engine.getD localContractRestore artifact).2 = none) :
    RestoreAgrees site.platform site.order verifies artifact
      (engine.getD localContractRestore artifact) := by
  cases hengine with
  | localContract =>
    exact (faithful_iff hmailboxes).mp ⟨rfl, fun _ _ => ⟨rfl, rfl, fun _ _ => rfl⟩⟩
  | sqlIsolated => exact sqlIsolatedRestore_agrees hplain hpolicy hfinished

theorem BackupArtifact.Plain.served_iff (hplain : artifact.Plain site) :
    (∀ address ∈ artifact.mailboxes.keys,
        artifact.service.recipientFlag site.platform site.order address = some true) ↔
      ∀ address mailbox, artifact.mailboxes.lookup address = some mailbox →
        mailbox.enabled = true := by
  have hflag {address : Text} {mailbox : DaemonMailbox}
      (hlookup : artifact.mailboxes.lookup address = some mailbox) :
      artifact.service.recipientFlag site.platform site.order address = some mailbox.enabled := by
    rw [Daemon.recipientFlag_eq hplain.addressed (hplain.mailboxes _ _ hlookup).1.normalized]
    change ((artifact.mailboxes.lookup address).map _).or _ = _
    rw [hlookup]
    rfl
  constructor
  · intro hserved address mailbox hlookup
    have hmem := AList.lookup_isSome.mp (Option.isSome_of_eq_some hlookup)
    rw [← Option.some_inj, ← hflag hlookup]
    exact hserved address hmem
  · intro henabled address haddress
    obtain ⟨mailbox, hlookup⟩ := Option.isSome_iff_exists.mp (AList.lookup_isSome.mpr haddress)
    rw [hflag hlookup, henabled address mailbox hlookup]

end Engines

/-- Verification reports a backup verified exactly when the restored service decides as the
artifact's own, if and only if a restore that agrees with the artifact implies that all
mailboxes of the artifact are enabled, and a restored service that has an enabled mailbox
or alias at each of their addresses agrees with the artifact in everything else: the flags of
mailboxes and aliases and the passwords that open them. The engines of the source restore a
plain artifact without loss or not at all, so that with them it comes down to the flags of
its mailboxes. -/
theorem backup_verified_iff {Policy : Type} (site : ImportSite)
    (verifies : Text → Text → Bool)
    (storage : Text → Except Text (BackupArtifact Policy)) (ref : Text)
    (engine : Option (RestoreEngine Policy)) (artifact : BackupArtifact Policy)
    (hread : storage ref = .ok artifact) (hschema : artifact.schemaVersion ≠ [])
    (hconfig : artifact.configSetID ≠ []) (hmailboxes : artifact.mailboxes.keys ≠ [])
    (hpolicy : artifact.outboundPolicy = none) :
    let restored := engine.getD localContractRestore artifact
    (VerifiesExactly site.platform site.order verifies storage ref engine artifact ↔
      (RestoreAgrees site.platform site.order verifies artifact restored →
        ∀ address ∈ artifact.mailboxes.keys,
          artifact.service.recipientFlag site.platform site.order address = some true) ∧
      (restored.2 = none → RestoreServes site.platform site.order artifact restored.1.service →
        RestoreAgrees site.platform site.order verifies artifact restored)) ∧
    (SourceEngine site engine → artifact.Plain site → restored.2 = none →
      (VerifiesExactly site.platform site.order verifies storage ref engine artifact ↔
        ∀ address mailbox, artifact.mailboxes.lookup address = some mailbox →
          mailbox.enabled = true)) := by
  intro restored
  have hexact := @verifiesExactly_iff _ site.platform site.order verifies artifact ref storage
    engine hread hschema hconfig hmailboxes hpolicy
  refine ⟨hexact, fun hengine hplain hfinished => ?_⟩
  have hagrees : RestoreAgrees site.platform site.order verifies artifact restored :=
    hengine.agrees hplain hmailboxes hpolicy hfinished
  rw [hexact, ← hplain.served_iff]
  exact ⟨fun hboth => hboth.1 hagrees, fun hserved => ⟨fun _ => hserved, fun _ _ => hagrees⟩⟩

def plainArtifact (enabled : Bool) : BackupArtifact Unit where
  domains := (∅ : Mapping Text DaemonDomain).insert (ascii "x.test") ⟨ascii "x.test", true⟩
  mailboxes := (∅ : Mapping Text DaemonMailbox).insert (ascii "a@x.test")
    ⟨ascii "a@x.test", enabled, ascii "v"⟩
  aliases := (∅ : Mapping Text DaemonAlias).insert (ascii "b@x.test")
    ⟨ascii "b@x.test", true, [ascii "a@x.test"]⟩
  outboundPolicy := none
  configSetID := ascii "c"
  schemaVersion := ascii "s"

theorem plainArtifact_plain (enabled : Bool) : (plainArtifact enabled).Plain plainImport := by
  have haddress (address : Text) (hmem : address ∈ [ascii "a@x.test", ascii "b@x.test"]) :
      PlainAddress plainImport address := by
    rcases List.mem_pair.mp hmem with rfl | rfl <;>
    exact ⟨by decide, by decide, by decide, ⟨⟨[], _⟩, by decide, rfl⟩, by
      rintro parts ⟨⟩
      decide⟩
  constructor <;> intro key value hlookup <;> obtain ⟨rfl, rfl⟩ := lookup_single hlookup
  · exact ⟨haddress _ (by decide), rfl⟩
  · exact ⟨haddress _ (by decide), rfl⟩

def plainEngine : RestoreEngine Unit :=
  plainImport.sqlIsolatedRestore (fun _ => false) 0 (fun _ => .ok .empty) true (.ok ()) []

theorem plainEngine_source {engine : Option (RestoreEngine Unit)}
    (hengine : engine ∈ [none, some plainEngine]) (enabled : Bool) :
    SourceEngine plainImport engine ∧
      (engine.getD localContractRestore (plainArtifact enabled)).2 = none := by
  rcases List.mem_pair.mp hengine with rfl | rfl
  · exact ⟨.localContract, rfl⟩
  · refine ⟨.sqlIsolated _ _ _ _ _ _, ?_⟩
    rw [Option.getD_some]
    revert enabled
    decide +kernel

def plainBackup (enabled : Bool) (engine : Option (RestoreEngine Unit)) : Backup :=
  verifyBackupWithRestore asciiPlatform (.stored Text)
    (fun _ => .ok (plainArtifact enabled)) (ascii "ref") engine

theorem plainBackup_status {engine : Option (RestoreEngine Unit)}
    (hengine : engine ∈ [none, some plainEngine]) (enabled : Bool) :
    (plainBackup enabled engine).status = if enabled then .verified else .failed := by
  revert enabled
  rcases List.mem_pair.mp hengine with rfl | rfl
  · decide
  · decide +kernel

theorem backup_verified_plain :
    [none, some plainEngine].Forall fun engine => (plainBackup true engine).status = .verified ∧
      VerifiesExactly asciiPlatform (.stored Text) (fun verifier secret => verifier == secret)
        (fun _ => .ok (plainArtifact true)) (ascii "ref") engine (plainArtifact true) := by
  refine List.forall_iff_forall_mem.mpr fun engine hengine => ?_
  obtain ⟨hsource, hfinished⟩ := plainEngine_source hengine true
  refine ⟨plainBackup_status hengine true, ((backup_verified_iff plainImport
    (fun verifier secret => verifier == secret) (fun _ => .ok (plainArtifact true))
    (ascii "ref") engine (plainArtifact true) rfl (by decide) (by decide) (by decide)
    rfl).2 hsource (plainArtifact_plain true) hfinished).mpr ?_⟩
  intro address mailbox hlookup
  rw [(lookup_single hlookup).2]

def forgetAliases : RestoreEngine Unit := fun artifact =>
  (⟨ascii "ref", { artifact.service with aliases := ∅ }, true⟩, none)

/-- A faithful restore of a disabled mailbox fails, and a restore without the
aliases is verified. -/
theorem backup_misjudged :
    (∀ engine ∈ [none, some plainEngine], (plainBackup false engine).status = .failed ∧
      Faithful asciiPlatform (.stored Text) (fun verifier secret => verifier == secret)
        (plainArtifact false) (engine.getD localContractRestore (plainArtifact false))) ∧
      (plainBackup true (some forgetAliases)).status = .verified ∧
      ¬ Faithful asciiPlatform (.stored Text) (fun verifier secret =>
        verifier == secret) (plainArtifact true) (forgetAliases (plainArtifact true)) := by
  refine ⟨?_, by decide, ?_⟩
  · intro engine hengine
    obtain ⟨hsource, hfinished⟩ := plainEngine_source hengine false
    exact ⟨plainBackup_status hengine false, (faithful_iff (by decide)).mpr
      (hsource.agrees (plainArtifact_plain false) (by decide) rfl hfinished)⟩
  · intro hfaithful
    have halias := (hfaithful.2 (ascii "b@x.test") (.inr (by decide))).aliased
    revert halias
    decide

end GotthMail
