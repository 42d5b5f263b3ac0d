/-
What a restarted process serves.  The identity service loads the mailboxes and
app passwords of the database and fills a fresh daemon with them; the daemon
opens the domain of every mailbox that it is given, whatever the row of that
domain says.
-/
import GotthMail.IdentityService

namespace GotthMail

open Bytes Ranges

namespace IdentityService

variable {p : Platform} {order : Order Text} {service : IdentityService} {before after : Daemon}

variable (p) in
def daemonEntry (mailbox : IdentityMailbox) : Text × DaemonMailbox :=
  let address := Daemon.normalizeAddress p (p.lower mailbox.email)
  (address, ⟨address, mailbox.active, mailbox.verifier⟩)

variable (p) in
def daemonDomain (mailbox : IdentityMailbox) : Text := Daemon.domainPart (daemonEntry p mailbox).1

variable (p before) in
/-- What giving mailboxes to a daemon does to it. -/
structure Upserted (given : List IdentityMailbox) (after : Daemon) : Prop where
  unavailable : after.unavailable = before.unavailable
  aliases : after.aliases = before.aliases
  verifiers : after.appPasswordVerifiers = before.appPasswordVerifiers
  mailboxes : after.mailboxes = fill before.mailboxes (given.map (daemonEntry p))
  opened : ∀ {name domain}, after.domains.lookup name = some domain →
    before.domains.lookup name = some domain ∨
      domain = ⟨name, true⟩ ∧ ∃ mailbox ∈ given, daemonDomain p mailbox = name
  kept : ∀ name ∈ before.domains, name ∈ after.domains
  covered : ∀ mailbox ∈ given, daemonDomain p mailbox ∈ after.domains

variable (p service) in
theorem syncDaemonMailbox_upserted (hbound : service.daemon = some before)
    (mailbox : IdentityMailbox) :
    ∃ after, syncDaemonMailbox p service mailbox =
      { service with daemon := some after } ∧ Upserted p before [mailbox] after := by
  refine ⟨Daemon.upsertIdentityMailbox p ⟨p.lower mailbox.email, mailbox.active, mailbox.verifier⟩
    { before with audit := before.audit.or service.audit }, ?_, rfl, rfl, rfl, rfl, ?_, ?_, ?_⟩
  · rw [syncDaemonMailbox, hbound]
    rfl
  · intro name domain hlookup
    simp only [Daemon.upsertIdentityMailbox] at hlookup
    split at hlookup
    · exact .inl hlookup
    · rw [lookup_insert_eq] at hlookup
      split at hlookup
      · next hname =>
          subst hname
          cases hlookup
          exact .inr ⟨rfl, mailbox, List.mem_singleton_self _, rfl⟩
      · exact .inl hlookup
  · intro name hname
    simp only [Daemon.upsertIdentityMailbox]
    split
    · exact hname
    · exact AList.mem_insert _ |>.mpr (.inr hname)
  · intro only honly
    rw [List.mem_singleton] at honly
    subst honly
    simp only [Daemon.upsertIdentityMailbox]
    split
    · assumption
    · exact AList.mem_insert _ |>.mpr (.inl rfl)

variable (p service) in
theorem syncMailboxes_upserted (mailboxes : List IdentityMailbox)
    (hbound : service.daemon = some before) :
    ∃ after, mailboxes.foldl (syncDaemonMailbox p) service =
      { service with daemon := some after } ∧
      Upserted p before mailboxes after := by
  induction mailboxes generalizing service before with
  | nil =>
    refine ⟨before, by rw [← hbound]; rfl, rfl, rfl, rfl, rfl, .inl, ?_, ?_⟩
    · exact fun _ hname => hname
    · exact fun _ hmailbox => absurd hmailbox List.not_mem_nil
  | cons mailbox rest ih =>
    obtain ⟨middle, hstep, hhead⟩ := syncDaemonMailbox_upserted p service hbound mailbox
    obtain ⟨after, hrest, htail⟩ := ih { service with daemon := some middle } rfl
    refine ⟨after, ?_, htail.unavailable.trans hhead.unavailable, htail.aliases.trans hhead.aliases,
      htail.verifiers.trans hhead.verifiers, ?_, ?_, ?_, ?_⟩
    · rw [List.foldl_cons, hstep, hrest]
    · rw [htail.mailboxes, hhead.mailboxes]
      rfl
    · intro name domain hlookup
      rcases htail.opened hlookup with hmiddle | ⟨heq, found, hmem, hname⟩
      · rcases hhead.opened hmiddle with hbefore | ⟨heq, found, hmem, hname⟩
        · exact .inl hbefore
        · exact .inr ⟨heq, found, List.mem_cons.mpr (.inl (List.mem_singleton.mp hmem)), hname⟩
      · exact .inr ⟨heq, found, List.mem_cons_of_mem _ hmem, hname⟩
    · exact fun name hname => htail.kept name (hhead.kept name hname)
    · intro found hmem
      rcases List.mem_cons.mp hmem with rfl | hmem
      · exact htail.kept _ (hhead.covered _ (List.mem_singleton_self _))
      · exact htail.covered found hmem

variable (p order service) in
/-- The verifiers that the daemon holds for a mailbox of the service. -/
def verifierEntry (mailboxID : Text) : Text × List Text :=
  (Daemon.normalizeAddress p mailboxID,
    (service.activeAppPasswords order mailboxID).map AppPassword.verifier)

variable (p order service) in
theorem syncPasswords_eq (mailboxIDs : List Text) (hbound : service.daemon = some before) :
    ∃ audit, mailboxIDs.foldl (syncDaemonAppPasswords p order) service =
      { service with
        daemon := some { before with
          audit := audit
          appPasswordVerifiers := fill before.appPasswordVerifiers
            (mailboxIDs.map (verifierEntry p order service)) } } := by
  induction mailboxIDs generalizing service before with
  | nil =>
    refine ⟨before.audit, ?_⟩
    cases service
    cases hbound
    rfl
  | cons mailboxID rest ih =>
    have hstep : syncDaemonAppPasswords p order service mailboxID =
        { service with
          daemon := some { before with
            audit := before.audit.or service.audit
            appPasswordVerifiers := before.appPasswordVerifiers.insert
              (verifierEntry p order service mailboxID).1
              (verifierEntry p order service mailboxID).2 } } := by
      rw [syncDaemonAppPasswords, hbound]
      rfl
    obtain ⟨audit, hrest⟩ := ih (syncDaemonAppPasswords p order service mailboxID) (by rw [hstep])
    refine ⟨audit, ?_⟩
    rw [List.foldl_cons, hrest, hstep]
    rfl

variable (p order service before) in
/-- A daemon that has been brought in step with a service. -/
structure Bound (after : Daemon) : Prop where
  unavailable : after.unavailable = before.unavailable
  aliases : after.aliases = before.aliases
  mailboxes : after.mailboxes = fill before.mailboxes
    (((order.range service.mailboxes).map Prod.snd).map (daemonEntry p))
  verifiers : after.appPasswordVerifiers = fill before.appPasswordVerifiers
    ((order.arrange service.mailboxes.keys).map (verifierEntry p order service))
  opened : ∀ {name domain}, after.domains.lookup name = some domain →
    before.domains.lookup name = some domain ∨ domain = ⟨name, true⟩ ∧
      ∃ key mailbox, service.mailboxes.lookup key = some mailbox ∧ daemonDomain p mailbox = name
  covered : ∀ {key mailbox}, service.mailboxes.lookup key = some mailbox →
    daemonDomain p mailbox ∈ after.domains

variable (p order) in
theorem bindDaemon_bound (service : IdentityService) (before : Daemon) :
    ∃ after, bindDaemon p order service before =
      { service with daemon := some after } ∧
      Bound p order service before after := by
  obtain ⟨middle, hsynced, hupserted⟩ := syncMailboxes_upserted p
    { service with daemon := some before } ((order.range service.mailboxes).map Prod.snd) rfl
  obtain ⟨audit, hpasswords⟩ := syncPasswords_eq p order
    { service with daemon := some middle } (order.arrange service.mailboxes.keys) rfl
  refine ⟨{ middle with
    audit := audit
    appPasswordVerifiers := fill middle.appPasswordVerifiers
      ((order.arrange service.mailboxes.keys).map (verifierEntry p order service)) },
    ?_, hupserted.unavailable, hupserted.aliases, hupserted.mailboxes, ?_, ?_, ?_⟩
  · rw [bindDaemon, syncDaemon, hsynced]
    exact hpasswords
  · simp only [hupserted.verifiers]
  · intro name domain hlookup
    refine (hupserted.opened hlookup).imp_right ?_
    rintro ⟨heq, mailbox, hmem, hname⟩
    obtain ⟨⟨key, _⟩, hentry, rfl⟩ := List.mem_map.mp hmem
    exact ⟨heq, key, _, Order.mem_range.mp hentry, hname⟩
  · intro key mailbox hlookup
    exact hupserted.covered mailbox
      (List.mem_map.mpr ⟨(key, mailbox), Order.mem_range.mpr hlookup, rfl⟩)

theorem syncDaemon_unbound (hunbound : service.daemon = none) :
    syncDaemon p order service = service := by
  have hmailbox : ∀ mailbox, syncDaemonMailbox p service mailbox = service := by
    intro mailbox
    cases service
    cases hunbound
    rfl
  have hpassword : ∀ mailboxID, syncDaemonAppPasswords p order service mailboxID = service := by
    intro mailboxID
    cases service
    cases hunbound
    rfl
  rw [syncDaemon, List.foldl_fixed' hmailbox, List.foldl_fixed' hpassword]

variable {db : Directory} {domains : List Text}

variable (p order db) in
/-- What a new service holds after it has read the database. -/
structure Loaded (service : IdentityService) : Prop where
  unbound : service.daemon = none
  mailboxes : service.mailboxes = fill ∅ (db.located.map fun place =>
    (email p place, loadedMailbox p place))
  appPasswords : service.appPasswords = fill ∅ (db.tokens.rows.filterMap (loadedPassword p))
  limited : ∀ key ∈ service.mailboxes,
    service.activeAppPasswordCount order key ≤ maxActiveAppPasswords

theorem newSQLService_loaded (hload : newSQLService p order db domains = .ok service) :
    Loaded p order db service := by
  simp only [newSQLService, loadSQL] at hload
  split at hload
  · cases hload
  · next hnone =>
      rw [syncDaemon_unbound rfl] at hload
      cases hload
      refine ⟨rfl, rfl, rfl, fun key hkey => ?_⟩
      have hlimit := List.find?_eq_none.mp hnone key
        ((order.perm _).mem_iff.mpr (AList.mem_keys.mp hkey))
      simpa using hlimit

theorem Loaded.mailbox (hloaded : Loaded p order db service) {key : Text}
    {mailbox : IdentityMailbox} (hlookup : service.mailboxes.lookup key = some mailbox) :
    ∃ place ∈ db.located, email p place = key ∧ mailbox = loadedMailbox p place := by
  rw [hloaded.mailboxes] at hlookup
  rcases lookup_fill_some hlookup with hmem | hempty
  · obtain ⟨place, hplace, heq⟩ := List.mem_map.mp hmem
    cases heq
    exact ⟨place, hplace, rfl, rfl⟩
  · cases hempty

theorem Loaded.place (hloaded : Loaded p order db service)
    {place : DirectoryMailbox × DirectoryDomain} (hplace : place ∈ db.located) :
    ∃ mailbox, service.mailboxes.lookup (email p place) = some mailbox := by
  rw [← Option.isSome_iff_exists, hloaded.mailboxes]
  apply lookup_fill_isSome
  rw [List.map_map]
  exact .inl (List.mem_map.mpr ⟨place, hplace, rfl⟩)

end IdentityService

open IdentityService

section Closed

variable {p : Platform} {order visit : Order Text} {db : Directory}
  {daemon : Daemon} {service : IdentityService} {domains : List Text}

variable (p order) in
/-- The service of a process that starts with a fresh daemon. -/
def restart (db : Directory) (domains : List Text) :
    Except Text IdentityService :=
  (newSQLService p order db domains).map fun service => bindDaemon p order service .fresh

variable (p) in
/-- The address under which a mailbox row is served. -/
def served (place : DirectoryMailbox × DirectoryDomain) : Text :=
  Daemon.normalizeAddress p (p.lower (email p place))

variable (p db) in
/-- What the daemon of a restarted process knows. -/
structure Restarted (daemon : Daemon) : Prop where
  available : daemon.unavailable = false
  aliases : daemon.aliases = ∅
  mailbox : ∀ {address mailbox}, daemon.mailboxes.lookup address = some mailbox →
    ∃ place ∈ db.located, served p place = address ∧
      mailbox = ⟨address, place.1.enabled, place.1.verifier⟩
  opened : ∀ {name domain}, daemon.domains.lookup name = some domain → domain = ⟨name, true⟩ ∧
      ∃ place ∈ db.located, Daemon.domainPart (served p place) = name
  covered : ∀ place ∈ db.located, Daemon.domainPart (served p place) ∈ daemon.domains

theorem restart_loads {started : IdentityService}
    (hrestart : restart p order db domains = .ok started) :
    ∃ service daemon, started = { service with daemon := some daemon } ∧
      Loaded p order db service ∧ Bound p order service .fresh daemon := by
  rw [restart] at hrestart
  cases hload : newSQLService p order db domains with
  | error reason =>
    rw [hload] at hrestart
    cases hrestart
  | ok service =>
    rw [hload] at hrestart
    cases hrestart
    obtain ⟨daemon, hdaemon, hbound⟩ := bindDaemon_bound p order service .fresh
    exact ⟨service, daemon, hdaemon, newSQLService_loaded hload, hbound⟩

theorem restart_restarted (hrestart : restart p order db domains = .ok service)
    (hdaemon : service.daemon = some daemon) : Restarted p db daemon := by
  obtain ⟨loaded, after, rfl, hloaded, hfilled⟩ := restart_loads hrestart
  cases hdaemon
  refine ⟨hfilled.unavailable, hfilled.aliases, ?_, ?_, ?_⟩
  · intro address mailbox hlookup
    rw [hfilled.mailboxes] at hlookup
    rcases lookup_fill_some hlookup with hmem | hempty
    · rw [List.map_map] at hmem
      obtain ⟨⟨key, found⟩, hentry, heq⟩ := List.mem_map.mp hmem
      obtain ⟨place, hplace, -, rfl⟩ := hloaded.mailbox (Order.mem_range.mp hentry)
      cases heq
      exact ⟨place, hplace, rfl, rfl⟩
    · cases hempty
  · intro name domain hlookup
    rcases hfilled.opened hlookup with hempty | ⟨heq, key, found, hfound, hname⟩
    · cases hempty
    · obtain ⟨place, hplace, -, rfl⟩ := hloaded.mailbox hfound
      exact ⟨heq, place, hplace, hname⟩
  · intro place hplace
    obtain ⟨found, hfound⟩ := hloaded.place hplace
    obtain ⟨same, -, hemail, rfl⟩ := hloaded.mailbox hfound
    have hcovered := hfilled.covered hfound
    rwa [daemonDomain, daemonEntry, loadedMailbox, hemail] at hcovered

namespace Restarted

variable (hrestarted : Restarted p db daemon)
include hrestarted

theorem domainView {name : Text} {domain : DaemonDomain}
    (hlookup : (daemon.domainView p visit).lookup name = some domain) :
    domain.enabled = true ∧ ∃ place ∈ db.located,
      Daemon.normalizeDomain p (Daemon.domainPart (served p place)) = name := by
  rcases lookup_fill_some hlookup with hmem | hempty
  · obtain ⟨⟨key, found⟩, hentry, heq⟩ := List.mem_map.mp hmem
    obtain ⟨rfl, place, hplace, rfl⟩ := hrestarted.opened (Order.mem_range.mp hentry)
    split at heq <;> cases heq <;> exact ⟨rfl, place, hplace, rfl⟩
  · cases hempty

variable (visit) in
theorem domainView_covered {place : DirectoryMailbox × DirectoryDomain}
    (hplace : place ∈ db.located) :
    ((daemon.domainView p visit).lookup (Daemon.normalizeDomain p
      (Daemon.domainPart (served p place)))).isSome = true := by
  obtain ⟨domain, hlookup⟩ := Option.isSome_iff_exists.mp
    (AList.lookup_isSome.mpr (hrestarted.covered place hplace))
  obtain ⟨rfl, -⟩ := hrestarted.opened hlookup
  apply lookup_fill_isSome
  rw [List.map_map]
  refine .inl (List.mem_map.mpr ⟨_, Order.mem_range.mpr hlookup, ?_⟩)
  simp only [Function.comp_apply]
  split <;> rfl

theorem mailboxView {address : Text} {mailbox : DaemonMailbox}
    (hlookup : (daemon.mailboxView p visit).lookup address = some mailbox) :
    ∃ place ∈ db.located, mailbox.enabled = place.1.enabled ∧
      Daemon.normalizeAddress p (served p place) = address := by
  rcases lookup_fill_some hlookup with hmem | hempty
  · obtain ⟨⟨key, found⟩, hentry, heq⟩ := List.mem_map.mp hmem
    obtain ⟨place, hplace, rfl, rfl⟩ := hrestarted.mailbox (Order.mem_range.mp hentry)
    split at heq <;> cases heq <;> exact ⟨place, hplace, rfl, rfl⟩
  · cases hempty

theorem mailboxAuth {address : Text} {mailbox : DaemonMailbox} {verifiers : List Text}
    (hauth : daemon.mailboxAuth p visit address = some (mailbox, verifiers)) :
    ∃ place ∈ db.located, mailbox.enabled = place.1.enabled ∧
      (served p place = Daemon.normalizeAddress p address ∨
        Daemon.normalizeAddress p (served p place) = Daemon.normalizeAddress p address) := by
  obtain ⟨found, hfound, heq⟩ := Option.map_eq_some_iff.mp hauth
  cases heq
  rcases Option.or_eq_some_iff.mp hfound with hlookup | ⟨-, hscan⟩
  · obtain ⟨place, hplace, haddress, rfl⟩ := hrestarted.mailbox hlookup
    exact ⟨place, hplace, rfl, .inl haddress⟩
  · obtain ⟨⟨key, _⟩, hentry, rfl⟩ := Option.map_eq_some_iff.mp hscan
    obtain ⟨place, hplace, rfl, rfl⟩ :=
      hrestarted.mailbox (Order.mem_range.mp (List.mem_of_find?_eq_some hentry))
    have hkey := List.find?_some hentry
    exact ⟨place, hplace, rfl, .inr (beq_iff_eq.mp hkey)⟩

end Restarted

structure DirectoryAlias where
  id : Text
  domainID : Text
  localPart : Text
  enabled : Bool

variable (p db) in
/-- Some enabled row is the domain of a name, as lookups compare names. -/
def DomainOpen (name : Text) : Prop :=
  ∃ row ∈ db.domains.rows, row.enabled = true ∧
    Daemon.normalizeDomain p row.name = Daemon.normalizeDomain p name

variable (p db) in
/-- Some enabled mailbox of an enabled domain is at an address; lookups
normalize the address that they are given twice. -/
def MailboxOpen (address : Text) : Prop :=
  ∃ place ∈ db.located, place.1.enabled = true ∧ place.2.enabled = true ∧
    served p place = Daemon.normalizeAddress p (Daemon.normalizeAddress p address)

variable (p db) in
def AliasOpen (aliases : List DirectoryAlias) (address : Text) : Prop :=
  ∃ row ∈ aliases, ∃ domain ∈ db.domains.rows, domain.id = row.domainID ∧
    row.enabled = true ∧ domain.enabled = true ∧
    Daemon.normalizeAddress p (row.localPart ++ atSign :: domain.name) =
      Daemon.normalizeAddress p address

variable (p visit db) in
/-- A daemon accepts mail and logins for what is open in the database only. -/
structure Closed (aliases : List DirectoryAlias)
    (verifies : Text → Text → Bool) (daemon : Daemon) : Prop where
  domain : ∀ name, (daemon.postfixDomain p visit name).decision = .ok → DomainOpen p db name
  recipient : ∀ address, (daemon.postfixRecipient p visit address).decision = .ok →
    MailboxOpen p db address ∨ AliasOpen p db aliases address
  passdb : ∀ req, (daemon.dovecotPassdb p visit verifies req).decision = .ok →
    MailboxOpen p db req.username

variable (p db) in
/-- Names and addresses that the lookups leave apart: no two domains are the
same to them, and an address is served in its own domain and under a text that
normalizes to itself. -/
structure Canonical : Prop where
  names : ∀ one ∈ db.domains.rows, ∀ other ∈ db.domains.rows,
    Daemon.normalizeDomain p one.name = Daemon.normalizeDomain p other.name → one = other
  placed : ∀ place ∈ db.located, Daemon.normalizeDomain p (Daemon.domainPart (served p place)) =
      Daemon.normalizeDomain p place.2.name
  settled : ∀ place ∈ db.located, Daemon.normalizeAddress p (served p place) = served p place

theorem Restarted.postfixDomain_ok (hrestarted : Restarted p db daemon)
    (hcanonical : Canonical p db) {place : DirectoryMailbox × DirectoryDomain}
    (hplace : place ∈ db.located) : (daemon.postfixDomain p visit place.2.name).decision = .ok := by
  obtain ⟨domain, hlookup⟩ := Option.isSome_iff_exists.mp
    (hrestarted.domainView_covered visit hplace)
  have henabled := (hrestarted.domainView hlookup).1
  rw [hcanonical.placed place hplace] at hlookup
  simp only [Daemon.postfixDomain, hrestarted.available, hlookup, henabled]
  rfl

theorem Restarted.domainOpen (hrestarted : Restarted p db daemon) (hcanonical : Canonical p db)
    (henabled : ∀ place ∈ db.located, place.2.enabled = true) {name : Text}
    (hok : (daemon.postfixDomain p visit name).decision = .ok) :
    DomainOpen p db name := by
  simp only [Daemon.postfixDomain, hrestarted.available] at hok
  split at hok
  · cases hok
  split at hok
  · cases hok
  · next domain hlookup =>
      obtain ⟨-, place, hplace, hname⟩ := hrestarted.domainView hlookup
      rw [hcanonical.placed place hplace] at hname
      exact ⟨place.2, Directory.domain_of_located hplace, henabled place hplace, hname⟩

theorem Restarted.mailboxOpen (hrestarted : Restarted p db daemon) (hcanonical : Canonical p db)
    (henabled : ∀ place ∈ db.located, place.2.enabled = true) {address : Text}
    (hok : (daemon.postfixMailbox p visit (Daemon.normalizeAddress p address)).decision = .ok) :
    MailboxOpen p db address := by
  simp only [Daemon.postfixMailbox, hrestarted.available] at hok
  split at hok
  · cases hok
  split at hok
  · cases hok
  · next mailbox hlookup =>
      split at hok
      · next hactive =>
          obtain ⟨place, hplace, hsame, haddress⟩ := hrestarted.mailboxView hlookup
          rw [hcanonical.settled place hplace] at haddress
          exact ⟨place, hplace, hsame ▸ hactive, henabled place hplace, haddress⟩
      · cases hok

theorem Restarted.recipientOpen (hrestarted : Restarted p db daemon) (hcanonical : Canonical p db)
    (henabled : ∀ place ∈ db.located, place.2.enabled = true) {address : Text}
    (hok : (daemon.postfixRecipient p visit address).decision = .ok) :
    MailboxOpen p db address := by
  simp only [Daemon.postfixRecipient, hrestarted.available] at hok
  split at hok
  · cases hok
  split at hok
  · exact hrestarted.mailboxOpen hcanonical henabled hok
  split at hok
  · -- No alias is loaded, so the map of aliases that the lookup sees is empty.
    next halias =>
      rw [Daemon.aliasView, hrestarted.aliases] at halias
      obtain ⟨found, hfound⟩ := Option.isSome_iff_exists.mp (AList.lookup_isSome.mpr halias)
      rcases lookup_fill_some hfound with hmem | hempty
      · obtain ⟨⟨key, row⟩, hentry, -⟩ := List.mem_map.mp hmem
        have hrow := Order.mem_range.mp hentry
        cases hrow
      · cases hempty
  · cases hok

theorem Restarted.passdbOpen (hrestarted : Restarted p db daemon) (hcanonical : Canonical p db)
    (henabled : ∀ place ∈ db.located, place.2.enabled = true)
    {verifies : Text → Text → Bool} {req : PassdbRequest}
    (hok : (daemon.dovecotPassdb p visit verifies req).decision = .ok) :
    MailboxOpen p db req.username := by
  simp only [Daemon.dovecotPassdb, hrestarted.available] at hok
  split at hok
  · cases hok
  split at hok
  · cases hok
  split at hok
  · cases hok
  · next mailbox verifiers hauth =>
      split at hok
      · cases hok
      · next hactive =>
          obtain ⟨place, hplace, hsame, haddress⟩ := hrestarted.mailboxAuth hauth
          rw [hcanonical.settled place hplace, or_self] at haddress
          have hplaced : place.1.enabled = true := by
            simpa [hsame] using hactive
          exact ⟨place, hplace, hplaced, henabled place hplace, haddress⟩

/-- After a restart nothing is open that the database closes exactly when no
mailbox, enabled or not, is in a disabled domain: the domain of any mailbox is
opened with it. -/
theorem restart_closed_iff (hcanonical : Canonical p db)
    (hrestart : restart p order db domains = .ok service) (hdaemon : service.daemon = some daemon)
    (aliases : List DirectoryAlias) (verifies : Text → Text → Bool) :
    Closed p visit db aliases verifies daemon ↔ ∀ place ∈ db.located, place.2.enabled = true := by
  have hrestarted := restart_restarted hrestart hdaemon
  constructor
  · intro hclosed place hplace
    obtain ⟨row, hrow, henabled, hname⟩ := hclosed.domain place.2.name
      (hrestarted.postfixDomain_ok hcanonical hplace)
    have hsame := hcanonical.names row hrow place.2 (Directory.domain_of_located hplace) hname
    exact hsame ▸ henabled
  · intro henabled
    exact ⟨fun _ hok => hrestarted.domainOpen hcanonical henabled hok,
      fun _ hok => .inl (hrestarted.recipientOpen hcanonical henabled hok),
      fun _ hok => hrestarted.passdbOpen hcanonical henabled hok⟩

end Closed

/-- One enabled mailbox, in a domain that may be disabled, beside a disabled
domain without mailboxes. -/
def oneMailbox (enabled : Bool) : Directory :=
  { Directory.empty with
    domains := ⟨⟨[⟨ascii "d", ascii "x.test", enabled⟩, ⟨ascii "e", ascii "y.test", false⟩],
      by simp [ascii]⟩, by simp [ascii]⟩
    mailboxes := ⟨⟨[⟨ascii "m", ascii "d", ascii "a", [], true, ascii "v", 0, none⟩],
      by simp⟩, by decide⟩ }

theorem restart_closed_iff_enabled :
    (∃ row ∈ (oneMailbox true).domains.rows, row.enabled = false) ∧
      ∃ service daemon, restart asciiPlatform (.stored _) (oneMailbox true) [] = .ok service ∧
        service.daemon = some daemon ∧
        Closed asciiPlatform (.stored _) (oneMailbox true) [] (· == ·) daemon := by
  have hcanonical : Canonical asciiPlatform (oneMailbox true) :=
    ⟨by decide, by decide +kernel, by decide +kernel⟩
  cases hrestart : restart asciiPlatform (.stored _) (oneMailbox true) [] with
  | error reason =>
    have hstarts : (restart asciiPlatform (.stored _) (oneMailbox true)
      []).toOption.isSome = true := by decide +kernel
    rw [hrestart] at hstarts
    cases hstarts
  | ok service =>
    obtain ⟨loaded, daemon, rfl, -⟩ := restart_loads hrestart
    exact ⟨by decide, _, daemon, rfl, rfl,
      (restart_closed_iff hcanonical hrestart rfl [] (· == ·)).mpr (by decide)⟩

/-- A disabled domain is open again after a restart: it accepts mail for its
mailbox and a login with the mailbox's secret. -/
theorem disabled_domain_reopened :
    ∃ service ∈ (restart asciiPlatform (.stored _) (oneMailbox false) []).toOption,
      ∃ daemon ∈ service.daemon, (∀ row ∈ (oneMailbox false).domains.rows, row.enabled = false) ∧
        (daemon.postfixDomain asciiPlatform (.stored _) (ascii "x.test")).decision = .ok ∧
        (daemon.postfixRecipient asciiPlatform (.stored _) (ascii "a@x.test")).decision = .ok ∧
        (daemon.dovecotPassdb asciiPlatform (.stored _) (· == ·)
          ⟨ascii "a@x.test", ascii "v", ascii "imap"⟩).decision = .ok := by
  decide +kernel

end GotthMail
