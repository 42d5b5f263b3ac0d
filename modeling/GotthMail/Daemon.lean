/-
The lookups that the mail daemons make: domains, recipients and passwords, in
maps that the identity service fills.  A map may be visited in any order.
-/
import GotthMail.Database
import GotthMail.Pbkdf2
import GotthMail.Ranges

namespace GotthMail

open Bytes Framing Ranges

inductive DaemonDecision where
  | ok
  | notFound
  | reject
  | defer
  | error
deriving DecidableEq

def DaemonDecision.text : DaemonDecision → String
  | .ok => "ok"
  | .notFound => "not_found"
  | .reject => "reject"
  | .defer => "defer"
  | .error => "error"

structure DaemonResponse where
  decision : DaemonDecision
  reason : String
  message : Text
  targets : List Text
deriving DecidableEq

structure DaemonDomain where
  name : Text
  enabled : Bool
deriving DecidableEq

structure DaemonMailbox where
  address : Text
  enabled : Bool
  verifier : Text
deriving DecidableEq

structure DaemonAlias where
  address : Text
  enabled : Bool
  targets : List Text
deriving DecidableEq

structure PassdbRequest where
  username : Text
  secret : Text
  protocol : Text

/-- A writer of audit events, which may refuse them. -/
structure AuditWriter where
  accepts : Bool
deriving DecidableEq

structure Daemon where
  unavailable : Bool
  domains : Mapping Text DaemonDomain
  mailboxes : Mapping Text DaemonMailbox
  aliases : Mapping Text DaemonAlias
  appPasswordVerifiers : Mapping Text (List Text)
  audit : Option AuditWriter

def maxAppPasswordVerifiers : Nat := 8

def Daemon.fresh : Daemon := ⟨false, ∅, ∅, ∅, ∅, none⟩

def safeMessage (decision : DaemonDecision) (reason : String) : Text :=
  (ascii (decision.text ++ ": " ++ reason)).map fun byte => if byte = 95 then 32 else byte

def resp (decision : DaemonDecision) (reason : String) : DaemonResponse :=
  ⟨decision, reason, safeMessage decision reason, []⟩

/-- The iterations, the salt and the digest of a stored password. -/
def readDjango (encoded : Text) : Except Error (Nat × Text × Text) :=
  match encoded.splitOn 36 with
  | [scheme, count, salt, digest] => do
    check (scheme == ascii "pbkdf2_sha256") "unsupported verifier"
    let iterations := (atoi count).getD 0
    check (decide (1 ≤ iterations)) "invalid verifier iterations"
    check (salt != []) "invalid verifier salt"
    let want := (Pbkdf2.decode64 digest).getD []
    check (decide (want.length = 32)) "invalid verifier digest"
    return (iterations.toNat, salt, want)
  | _ => .error (.text "unsupported verifier")

def validateDjangoPBKDF2SHA256 (encoded : Text) : Except Error Unit :=
  (readDjango encoded).map fun _ => ()

def verifyDjangoPBKDF2SHA256 (encoded secret : Text) : Except Error Unit := do
  let (iterations, salt, want) ← readDjango encoded
  check (Pbkdf2.derive secret salt iterations == want) "secret mismatch"

namespace Daemon

variable (p : Platform)

def normalizeDomain (name : Text) : Text := p.lower (trimSpace name)

def normalizeAddress (address : Text) : Text :=
  match p.parseAddress (trimSpace address) with
  | none => p.lower (trimSpace address)
  | some parsed => p.lower parsed.address

/-- What follows the last at sign, or the whole text when there is none. -/
def domainPart (address : Text) : Text :=
  match lastIndexByte address atSign with
  | none => address
  | some index => address.drop (index + 1)

def upsertIdentityMailbox (mailbox : DaemonMailbox) (daemon : Daemon) : Daemon :=
  let address := normalizeAddress p mailbox.address
  let domain := domainPart address
  { daemon with
    mailboxes := daemon.mailboxes.insert address { mailbox with address := address }
    domains := if domain ∈ daemon.domains then daemon.domains
      else daemon.domains.insert domain ⟨domain, true⟩ }

def setAppPasswordVerifiers (address : Text) (verifiers : List Text) (daemon : Daemon) : Daemon :=
  { daemon with
    appPasswordVerifiers :=
      daemon.appPasswordVerifiers.insert (normalizeAddress p address) verifiers }

variable (order : Order Text) (daemon : Daemon)

/-- The domains under their normalized names. -/
def domainView : Mapping Text DaemonDomain :=
  fill ∅ ((order.range daemon.domains).map fun entry =>
    let domain := if entry.2.name = [] then { entry.2 with name := entry.1 }
      else entry.2
    (normalizeDomain p domain.name, domain))

/-- The mailboxes under their normalized addresses. -/
def mailboxView : Mapping Text DaemonMailbox :=
  fill ∅ ((order.range daemon.mailboxes).map fun entry =>
    let mailbox := if entry.2.address = [] then
        { entry.2 with address := entry.1 }
      else entry.2
    (normalizeAddress p mailbox.address, mailbox))

/-- The aliases under their normalized addresses. -/
def aliasView : Mapping Text DaemonAlias :=
  fill ∅ ((order.range daemon.aliases).map fun entry =>
    let found := if entry.2.address = [] then
        { entry.2 with address := entry.1 }
      else entry.2
    (normalizeAddress p found.address, found))

def postfixDomain (domain : Text) : DaemonResponse :=
  if daemon.unavailable then resp .defer "database_unavailable"
  else
    match (domainView p order daemon).lookup (normalizeDomain p domain) with
    | none => resp .notFound "domain_not_found"
    | some found =>
      if found.enabled then resp .ok "domain_accepted"
      else resp .reject "domain_disabled"

def postfixMailbox (address : Text) : DaemonResponse :=
  if daemon.unavailable then resp .defer "database_unavailable"
  else
    match (mailboxView p order daemon).lookup (normalizeAddress p address) with
    | none => resp .notFound "mailbox_not_found"
    | some mailbox =>
      if mailbox.enabled then resp .ok "mailbox_accepted"
      else resp .reject "mailbox_disabled"

def postfixAlias (address : Text) : DaemonResponse :=
  if daemon.unavailable then resp .defer "database_unavailable"
  else
    match (aliasView p order daemon).lookup (normalizeAddress p address) with
    | none => resp .notFound "alias_not_found"
    | some found =>
      if found.enabled then
        { resp .ok "alias_expanded" with targets := found.targets }
      else resp .reject "alias_disabled"

def postfixRecipient (address : Text) : DaemonResponse :=
  if daemon.unavailable then resp .defer "database_unavailable"
  else
    let normalized := normalizeAddress p address
    if normalized ∈ mailboxView p order daemon then
      postfixMailbox p order daemon normalized
    else if normalized ∈ aliasView p order daemon then
      postfixAlias p order daemon normalized
    else resp .notFound "recipient_not_found"

/-- The first visited entry whose key normalizes to an address. -/
def scanned {ν : Type} (mapping : Mapping Text ν) (address : Text) : Option ν :=
  ((order.range mapping).find? fun entry => normalizeAddress p entry.1 == address).map Prod.snd

def mailboxAuth (address : Text) : Option (DaemonMailbox × List Text) :=
  let normalized := normalizeAddress p address
  ((daemon.mailboxes.lookup normalized).or
    (scanned p order daemon.mailboxes normalized)).map fun mailbox =>
      -- A list without verifiers is a nil slice, and so counts as absent.
      let verifiers := (daemon.appPasswordVerifiers.lookup normalized).getD []
      (mailbox, if verifiers = [] then
          (scanned p order daemon.appPasswordVerifiers normalized).getD []
        else verifiers)

/-- A bearer token in the place of a password. -/
def oidcSecret (secret : Text) : Bool :=
  (ascii "oidc:").isPrefixOf secret || secret.count dot == 2 && (ascii "eyJ").isPrefixOf secret

def auditPassdb : Bool := daemon.audit.all AuditWriter.accepts

variable (verifies : Text → Text → Bool)

def dovecotPassdb (req : PassdbRequest) : DaemonResponse :=
  if daemon.unavailable then resp .defer "database_unavailable"
  else if req.protocol ≠ ascii "imap" ∧ req.protocol ≠ ascii "submission" then
    resp .error "unsupported_protocol"
  else
    match mailboxAuth p order daemon (normalizeAddress p req.username) with
    | none => resp .notFound "mailbox_not_found"
    | some (mailbox, appVerifiers) =>
      if !mailbox.enabled then resp .reject "mailbox_disabled"
      else if oidcSecret req.secret then
        resp .reject "oidc_token_not_mail_secret"
      else if verifies mailbox.verifier req.secret then
        if auditPassdb daemon then resp .ok "passdb_authenticated"
        else resp .defer "audit_unavailable"
      else if maxAppPasswordVerifiers < appVerifiers.length then
        resp .error "app_password_verifier_limit_exceeded"
      else if appVerifiers.any fun verifier => verifies verifier req.secret then
        if auditPassdb daemon then resp .ok "passdb_authenticated"
        else resp .defer "audit_unavailable"
      else resp .reject "invalid_secret"

end Daemon

end GotthMail
