/-
The identity service of the running process: the mailboxes and app passwords
it loads from the database, the changes it applies after a commit, and the
daemon that it keeps in step with them.
-/
import GotthMail.Daemon
import GotthMail.ScimStore

namespace GotthMail

open Bytes Ranges

structure AppPassword where
  id : Text
  mailboxID : Text
  label : Text
  verifier : Text
  createdAt : Time
  revokedAt : Option Time
deriving DecidableEq

def maxActiveAppPasswords : Nat := maxAppPasswordVerifiers

structure IdentityService where
  mailboxes : Mapping Text IdentityMailbox
  appPasswords : Mapping Text AppPassword
  knownDomains : List Text
  audit : Option AuditWriter
  daemon : Option Daemon

namespace IdentityService

variable (p : Platform) (order : Order Text)

def newService (domains : List Text) : IdentityService := ⟨∅, ∅, domains.map p.lower, none, none⟩

def activeAppPasswords (service : IdentityService) (mailboxID : Text) :
    List AppPassword :=
  ((order.range service.appPasswords).map Prod.snd).filter fun password =>
    password.mailboxID == mailboxID && password.revokedAt.isNone

def activeAppPasswordCount (service : IdentityService) (mailboxID : Text) : Nat :=
  (service.activeAppPasswords order mailboxID).length

def syncDaemonMailbox (service : IdentityService) (mailbox : IdentityMailbox) :
    IdentityService :=
  { service with
    daemon := service.daemon.map fun daemon => Daemon.upsertIdentityMailbox p
        ⟨p.lower mailbox.email, mailbox.active, mailbox.verifier⟩
        { daemon with audit := daemon.audit.or service.audit } }

def syncDaemonAppPasswords (service : IdentityService) (mailboxID : Text) :
    IdentityService :=
  { service with
    daemon := service.daemon.map fun daemon => Daemon.setAppPasswordVerifiers p mailboxID
        ((service.activeAppPasswords order mailboxID).map AppPassword.verifier)
        { daemon with audit := daemon.audit.or service.audit } }

/-- Bring the daemon in step with every mailbox and its app passwords. -/
def syncDaemon (service : IdentityService) : IdentityService :=
  let synced := ((order.range service.mailboxes).map Prod.snd).foldl (syncDaemonMailbox p) service
  (order.arrange service.mailboxes.keys).foldl (syncDaemonAppPasswords p order) synced

def bindDaemon (service : IdentityService) (daemon : Daemon) : IdentityService :=
  syncDaemon p order { service with daemon := some daemon }

/-- The key of a mailbox row in the service. -/
def email (place : DirectoryMailbox × DirectoryDomain) : Text := p.lower (Directory.addressOf place)

def loadedMailbox (place : DirectoryMailbox × DirectoryDomain) : IdentityMailbox where
  id :=
    match place.1.scimResourceID with
    | none => email p place
    | some id => if id = [] then email p place else id
  email := email p place
  displayName := place.1.displayName
  active := place.1.enabled
  verifier := place.1.verifier
  updatedAt := place.1.updatedAt

/-- An app password always has a public identifier. -/
def loadedPassword (row : TokenRow) : Option (Text × AppPassword) :=
  if row.kind = .appPassword then
    row.publicID.map fun id =>
      (id, ⟨id, p.lower row.subjectID, row.label, row.verifier, row.createdAt, row.revokedAt⟩)
  else none

def loadSQL (db : Directory) (service : IdentityService) :
    Except Text IdentityService :=
  let enabled := db.domains.rows.filter DirectoryDomain.enabled
  let loaded := { service with
    knownDomains := service.knownDomains ++ enabled.map fun domain => p.lower domain.name
    mailboxes := fill service.mailboxes (db.located.map fun place =>
      (email p place, loadedMailbox p place))
    appPasswords := fill service.appPasswords (db.tokens.rows.filterMap (loadedPassword p)) }
  match (order.arrange loaded.mailboxes.keys).find? fun mailboxID =>
      decide (maxActiveAppPasswords < loaded.activeAppPasswordCount order mailboxID)
    with
  | some mailboxID => .error (ascii "mailbox " ++ mailboxID ++
      ascii " exceeds active app password limit")
  | none => .ok (syncDaemon p order loaded)

def newSQLService (db : Directory) (domains : List Text) :
    Except Text IdentityService :=
  loadSQL p order db (newService p domains)

end IdentityService

end GotthMail
