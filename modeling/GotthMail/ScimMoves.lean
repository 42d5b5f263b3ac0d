/-
What the operations of a SCIM transaction do, told once: each of them is a
short sequence of moves, and one that fails has made the moves up to its error
unless the database has refused a statement.  Invariants are proved move by
move.
-/
import GotthMail.ScimStore
import Mathlib.Logic.Relation

namespace GotthMail

open Bytes Relational Effect

variable {after tx : ScimTransaction} {record : ResourceRow} {site : ScimSite}
  {request : ScimRequest}

/-- The transaction with another view of the database. -/
def ScimTransaction.onto (tx : ScimTransaction) (view : Directory) :
    ScimTransaction :=
  { tx with view := view }

/-- A resource that no tombstone reserves is added. -/
structure Inserts (record : ResourceRow) (tx after : ScimTransaction) : Prop where
  free : tx.view.reserved record = false
  added : ∃ resources, tx.view.resources.insert record = some resources ∧
    after = tx.onto { tx.view with resources := resources }

/-- A resource takes the values of its replacement. -/
structure Revises (record : ResourceRow) (tx after : ScimTransaction) : Prop where
  found : ∃ current, tx.view.resource? record.scope record.resourceType record.id = some current ∧
      record.created = current.created ∧ record.manager = current.manager ∧
      (current.externalID = record.externalID ∨
        tx.view.refs.rows.any (tx.view.boundTo record.id) = false)
  changed : after = tx.onto { tx.view with resources := tx.view.revised record }

def Reindexes (tx after : ScimTransaction) : Prop :=
  ∃ contracts indexes, after = tx.onto
    { tx.view with contracts := contracts, indexes := indexes }

def Regroups (tx after : ScimTransaction) : Prop :=
  ∃ members, after = tx.onto { tx.view with members := members }

namespace ScimSite

variable (site : ScimSite)

/-- The address and the verifier found for a resource. -/
inductive Stored (record : ResourceRow) (account : IdentityMailbox)
    (tx : ScimTransaction) : Text → Text → ScimTransaction → Prop
  | owned {place : DirectoryMailbox × DirectoryDomain} (hplace : place ∈ tx.view.located)
      (howner : place.1.scimResourceID = some record.id) :
      Stored record account tx (Directory.addressOf place) place.1.verifier tx
  | fresh (hnone : ∀ place ∈ tx.view.located, place.1.scimResourceID ≠ some record.id)
      (hclaim : tx.adoption = none) : Stored record account tx [] [] tx
  | claimed {claim : LegacyMailboxAdoption} {place : DirectoryMailbox × DirectoryDomain}
      (hnone : ∀ place ∈ tx.view.located, place.1.scimResourceID ≠ some record.id)
      (hclaim : tx.adoption = some claim) (hplace : place ∈ tx.view.located)
      (hid : place.1.id = claim.mailboxID) (hadopted : site.adopted claim account place = true) :
      Stored record account tx (site.locale.lower (Directory.addressOf place)) place.1.verifier
        { tx with adoption := some { claim with consumed := true } }

/-- The account drawn up for a resource, and the address it had before. -/
structure Drafts (record : ResourceRow) (mailbox : IdentityMailbox)
    (previous : Text) (tx after : ScimTransaction) : Prop where
  account : ∃ account verifier, site.describe record = .ok account ∧
    site.Stored record account tx previous verifier after ∧
    mailbox = { account with
      verifier := ((tx.passwords.lookup (recordPasswordKey record.scope
        record.resourceType record.id)).map PasswordChange.verifier).getD verifier }

/-- The statements that write a mailbox under its address. -/
structure Owns (record : ResourceRow) (previous : Text)
    (mailbox : IdentityMailbox) (localPart domain : Text)
    (db next : Directory) : Prop where
  written : ∃ id domainID resolved upserted revoked, (previous = [] ∧
        id = stableUUID (ascii "scim-mailbox:" ++ record.id) ∨
      previous ≠ [] ∧ ∃ row, db.mailboxes.rows.find? (fun row =>
        row.scimResourceID == some record.id) = some row ∧ row.id = id) ∧
    db.resolveDomain (stableUUID (ascii "domain:" ++ domain)) domain =
      .ok (domainID, resolved) ∧
    resolved.upsertMailbox (mailboxRow id domainID localPart mailbox record.id) = .ok upserted ∧
    (if mailbox.active then .ok upserted
      else upserted.revokeSessions record.id mailbox.updatedAt) = .ok revoked ∧
    (if previous = [] ∨ site.platform.equalFold previous mailbox.email then
        .ok revoked
      else revoked.moveTokens site.locale mailbox.email previous) = .ok next

/-- The statements that give an unowned mailbox its resource. -/
structure Adopts (record : ResourceRow) (mailbox : IdentityMailbox)
    (claim : LegacyMailboxAdoption) (db next : Directory) : Prop where
  written : db.adoptMailbox claim.mailboxID (mailboxRow [] [] [] mailbox record.id) = .ok (1, next)

inductive Persists (record : ResourceRow) (previous : Text)
    (mailbox : IdentityMailbox) (tx : ScimTransaction) (next : Directory) : Prop
  | adopted {claim : LegacyMailboxAdoption} (hclaim : tx.adoption = some claim)
      (hconsumed : claim.consumed = true)
      (hfold : site.platform.equalFold previous claim.mailbox = true)
      (hadopts : Adopts record mailbox claim tx.view next) :
      Persists record previous mailbox tx next
  | owned {localPart domain : Text} (hcut : cutAddress mailbox.email = some (localPart, domain))
      (hclaim : tx.adoption.filter (fun claim => claim.consumed &&
        site.platform.equalFold previous claim.mailbox) = none)
      (howns : site.Owns record previous mailbox localPart domain tx.view next) :
      Persists record previous mailbox tx next

variable (request : ScimRequest)

/-- A user's mailbox is written and noted. -/
structure Projects (record : ResourceRow) (tx after : ScimTransaction) : Prop where
  projected : ∃ gate mailbox previous middle next, request.identity = some gate ∧
    site.Drafts record mailbox previous tx middle ∧
    gate.authorizes request.actor mailbox.email = true ∧
    gate.validateMailbox site.platform mailbox.email = true ∧
    (site.platform.parseAddress mailbox.email).any (fun parsed =>
      parsed.address == mailbox.email) = true ∧
    site.Persists record previous mailbox middle next ∧
    after = { middle with
      view := next
      project := middle.project ++ [⟨previous, mailbox⟩] }

/-- What follows the write of a resource: members of a group, the mailbox of a
user when there is an identity service, nothing otherwise. -/
inductive Follows (record : ResourceRow) (tx after : ScimTransaction) : Prop
  | group (htype : record.resourceType = groupType) (hmoves : Regroups tx after) :
      Follows record tx after
  | other (htype : record.resourceType ≠ groupType)
      (hidle : request.identity = none ∨ record.resourceType ≠ userType)
      (hsame : after = tx) : Follows record tx after
  | user (htype : record.resourceType = userType)
      (hmoves : site.Projects request record tx after) : Follows record tx after

/-- A user's mailbox is disabled and noted, when there is an identity service. -/
inductive Disables (record : ResourceRow) (now : Time)
    (tx after : ScimTransaction) : Prop
  | other (hidle : request.identity = none ∨ record.resourceType ≠ userType)
      (hsame : after = tx) : Disables record now tx after
  | user {mailbox : IdentityMailbox} {previous : Text} {middle : ScimTransaction}
      {disabled next : Directory} (htype : record.resourceType = userType)
      (hidentity : request.identity.isSome = true)
      (hdrafts : site.Drafts record mailbox previous tx middle)
      (hdisable : middle.view.disableMailbox record.id now = .ok disabled)
      (hrevoke : disabled.revokeSessions record.id now = .ok next)
      (hafter : after = { middle with
        view := next
        project := middle.project ++
          [⟨previous, { mailbox with active := false, updatedAt := now }⟩] }) :
      Disables record now tx after

/-- A resource goes and its tombstone stays. -/
structure Buries (stone : Tombstone) (tx after : ScimTransaction) : Prop where
  buried : ∃ current middle removed next,
    tx.view.resource? stone.scope stone.resourceType stone.id = some current ∧
    stone.externalID = current.externalID ∧
    site.Disables request current stone.deletedAt tx middle ∧
    middle.view.deleteResource stone.scope stone.resourceType stone.id = .ok removed ∧
    removed.insertTombstone stone = .ok next ∧ after = middle.onto next

/-- The move that a call begins with. -/
inductive Opens : ScimCall → ScimTransaction → ScimTransaction → Prop
  | inserted {tx after : ScimTransaction} {record : ScimRecord}
      (hmoves : Inserts record.toResourceRow tx after) : Opens (.create record) tx after
  | revised {tx after : ScimTransaction} {record : ScimRecord} (expectedVersion : Text)
      (hmoves : Revises record.toResourceRow tx after) :
      Opens (.replace record expectedVersion) tx after
  | buried {tx after : ScimTransaction} {stone : Tombstone}
      (expectedVersion : Text) (hmoves : site.Buries request stone tx after) :
      Opens (.delete stone.scope stone.resourceType stone.id expectedVersion stone) tx after
  | noted {tx : ScimTransaction} (scope resourceType id password salt : Text)
      (passwords : List (Text × PasswordChange)) :
      Opens (.setPassword scope resourceType id password salt) tx
        { tx with passwords := passwords }

/-- A move that does not touch resources or tombstones. -/
inductive Moves : ScimTransaction → ScimTransaction → Prop
  | reindexed {tx after : ScimTransaction} (hmoves : Reindexes tx after) : Moves tx after
  | regrouped {tx after : ScimTransaction} (hmoves : Regroups tx after) : Moves tx after
  | consumed {tx : ScimTransaction} {claim : LegacyMailboxAdoption}
      (hclaim : tx.adoption = some claim) :
      Moves tx { tx with adoption := some { claim with consumed := true } }
  | projected {tx after : ScimTransaction} {record : ResourceRow}
      (htype : record.resourceType = userType) (hlive : record ∈ tx.view.resources.rows)
      (hmoves : site.Projects request record tx after) : Moves tx after

/-- Moves lead from one transaction to the other, unless the database has
refused a statement. -/
def Reaches (tx after : ScimTransaction) : Prop :=
  after.aborted = true ∨ Relation.ReflTransGen (site.Moves request) tx after

/-- What a call leaves behind: at most one opening move and what follows. -/
def Leaves (call : ScimCall) (tx after : ScimTransaction) : Prop :=
  ∃ opened, (opened = tx ∨ site.Opens request call tx opened) ∧ site.Reaches request opened after

end ScimSite

namespace Scim

variable {α β : Type} {pre raised : ScimTransaction → Prop}
  {post : β → ScimTransaction → Prop} {done : Unit → ScimTransaction → Prop}

theorem query_triple {read : Directory → β} (hraised : ∀ tx, pre tx → tx.aborted = true → raised tx)
    (hpost : ∀ tx, pre tx → tx.aborted = false → post (read tx.view) tx) :
    (query read).Triple pre post raised := by
  intro tx htx
  unfold query
  by_cases haborted : tx.aborted = true
  · simpa [haborted] using hraised tx htx haborted
  · simpa [haborted] using hpost tx htx (by simpa using haborted)

theorem query_bind {read : Directory → α} {rest : α → Scim β}
    (hraised : ∀ tx, pre tx → tx.aborted = true → raised tx) (hrest : ∀ value, (rest value).Triple
      (fun tx => pre tx ∧ tx.aborted = false ∧ read tx.view = value) post raised) :
    (query read >>= rest).Triple pre post raised := by
  have hquery : (query read).Triple pre (fun value tx =>
      pre tx ∧ tx.aborted = false ∧ read tx.view = value) raised :=
    query_triple hraised fun _ htx haborted => ⟨htx, haborted, rfl⟩
  exact hquery.bind hrest

theorem execute_triple {write : Directory → Except ScimError Directory}
    (hraised : ∀ tx, pre tx → tx.aborted = true → raised tx)
    (hfail : ∀ tx : ScimTransaction, raised { tx with aborted := true })
    (hwrite : ∀ tx next, pre tx → tx.aborted = false →
      write tx.view = .ok next → done () (tx.onto next)) :
    (execute write).Triple pre done raised := by
  intro tx htx
  unfold execute
  by_cases haborted : tx.aborted = true
  · simpa [haborted] using hraised tx htx haborted
  · have hfalse : tx.aborted = false := by simpa using haborted
    rw [if_neg haborted]
    cases hresult : write tx.view with
    | error reason => exact hfail tx
    | ok next => exact hwrite tx next htx hfalse hresult

theorem execute_bind {write : Directory → Except ScimError Directory} {rest : Unit → Scim β}
    (hraised : ∀ tx, pre tx → tx.aborted = true → raised tx)
    (hfail : ∀ tx : ScimTransaction, raised { tx with aborted := true })
    (hrest : (rest ()).Triple (fun after => ∃ before next, pre before ∧
      before.aborted = false ∧ write before.view = .ok next ∧
        before.onto next = after) post raised) :
    (execute write >>= rest).Triple pre post raised :=
  Triple.bind (execute_triple hraised hfail fun before next hpre haborted hwrite =>
    ⟨before, next, hpre, haborted, hwrite, rfl⟩) fun _ => hrest

theorem executeReturning_bind
    {write : Directory → Except ScimError (α × Directory)} {rest : α → Scim β}
    (hraised : ∀ tx, pre tx → tx.aborted = true → raised tx)
    (hfail : ∀ tx : ScimTransaction, raised { tx with aborted := true })
    (hrest : ∀ value, (rest value).Triple (fun after => ∃ before next,
      pre before ∧ before.aborted = false ∧
        write before.view = .ok (value, next) ∧ before.onto next = after)
      post raised) :
    (executeReturning write >>= rest).Triple pre post raised := by
  have hexecute : (executeReturning write).Triple pre (fun value after =>
      ∃ before next, pre before ∧ before.aborted = false ∧
        write before.view = .ok (value, next) ∧ before.onto next = after)
      raised := by
    intro tx htx
    unfold executeReturning
    by_cases haborted : tx.aborted = true
    · simpa [haborted] using hraised tx htx haborted
    · have hfalse : tx.aborted = false := by simpa using haborted
      rw [if_neg haborted]
      cases hresult : write tx.view with
      | error reason => exact hfail tx
      | ok result => exact ⟨tx, result.2, htx, hfalse, hresult, rfl⟩
  exact hexecute.bind hrest

end Scim

theorem Directory.resource?_eq_some {db : Directory} {scope resourceType id : Text}
    {row : ResourceRow} (hfind : db.resource? scope resourceType id = some row) :
    row ∈ db.resources.rows ∧ row.scope = scope ∧
      row.resourceType = resourceType ∧ row.id = id := by
  have hmatch := List.find?_some hfind
  simp only [Bool.and_eq_true, beq_iff_eq] at hmatch
  exact ⟨List.mem_of_find?_eq_some hfind, hmatch.1.1, hmatch.1.2, hmatch.2⟩

theorem Reindexes.resources_eq (hindexes : Reindexes tx after) :
    after.view.resources = tx.view.resources := by
  obtain ⟨contracts, indexes, rfl⟩ := hindexes
  rfl

theorem Inserts.live (hinserts : Inserts record tx after) : record ∈ after.view.resources.rows := by
  obtain ⟨resources, hinsert, rfl⟩ := hinserts.added
  change record ∈ resources.rows
  rw [(Table.insert_eq_some_iff.mp hinsert).2]
  exact List.mem_append_right _ List.mem_cons_self

theorem Revises.live (hrevises : Revises record tx after) : record ∈ after.view.resources.rows := by
  obtain ⟨⟨current, hfind, hcreated, hmanager, -⟩, rfl⟩ := hrevises
  obtain ⟨hmem, hscope, htype, hid⟩ := Directory.resource?_eq_some hfind
  refine List.mem_map.mpr ⟨current, hmem, ?_⟩
  cases record
  simp_all [Directory.revise]

namespace ScimSite

theorem stored_triple (tx : ScimTransaction) (record : ResourceRow) (account : IdentityMailbox) :
    (site.stored record account).Triple (· = tx) (fun result after =>
        site.Stored record account tx result.1 result.2 after) (· = tx) := by
  unfold stored
  refine Scim.query_bind (fun _ htx _ => htx) fun owned => ?_
  refine Triple.ask_bind fun claim => ?_
  match owned, claim with
  | some place, claim =>
    refine Triple.pure ?_
    rintro after ⟨⟨rfl, -, hfind⟩, -⟩
    exact .owned (List.mem_of_find?_eq_some hfind) (by simpa using List.find?_some hfind)
  | none, none =>
    refine Triple.pure ?_
    rintro after ⟨⟨rfl, -, hfind⟩, hclaim⟩
    exact .fresh (by simpa using hfind) hclaim
  | none, some claim =>
    refine Scim.query_bind (fun _ htx _ => htx.1.1) fun found => ?_
    refine Triple.need_bind (fun _ htx => htx.1.1.1) fun place hplace => ?_
    refine Triple.guard_bind (fun _ htx => htx.1.1.1) fun hadopted => ?_
    refine Triple.alter_bind (Triple.pure ?_)
    rintro after ⟨before, ⟨⟨⟨rfl, -, hnone⟩, hclaim⟩, -, hfind⟩, rfl⟩
    rw [hplace] at hfind
    exact .claimed (by simpa using hnone) hclaim (List.mem_of_find?_eq_some hfind)
      (by simpa using List.find?_some hfind) hadopted

theorem mailboxFromRecord_triple (tx : ScimTransaction) (record : ResourceRow) :
    (site.mailboxFromRecord record).Triple (· = tx)
      (fun result after => site.Drafts record result.1 result.2 tx after) (· = tx) := by
  unfold mailboxFromRecord
  refine Triple.of_bind (fun _ htx => htx) fun account haccount => ?_
  refine Triple.bind (stored_triple tx record account) ?_
  rintro ⟨previous, verifier⟩
  refine Triple.ask_bind fun passwords => Triple.pure ?_
  rintro after ⟨hstored, rfl⟩
  have hpasswords : after.passwords = tx.passwords := by
    cases hstored <;> rfl
  exact ⟨account, verifier, haccount, hstored, by rw [hpasswords]⟩

theorem mailboxID_triple (tx : ScimTransaction) (record : ResourceRow) (previous : Text) :
    (mailboxID record previous).Triple (· = tx) (fun id after => after = tx ∧ (previous = [] ∧
            id = stableUUID (ascii "scim-mailbox:" ++ record.id) ∨
          previous ≠ [] ∧ ∃ row, tx.view.mailboxes.rows.find? (fun row =>
            row.scimResourceID == some record.id) = some row ∧ row.id = id))
      (· = tx) := by
  unfold mailboxID
  by_cases hprevious : previous = []
  · rw [if_pos hprevious]
    refine Triple.pure ?_
    rintro after rfl
    exact ⟨rfl, .inl ⟨hprevious, rfl⟩⟩
  · rw [if_neg hprevious]
    refine Scim.query_bind (fun _ htx _ => htx) fun found => ?_
    refine Triple.need_bind (fun _ htx => htx.1) fun row hrow => Triple.pure ?_
    rintro after ⟨rfl, -, hfind⟩
    exact ⟨rfl, .inr ⟨hprevious, row, hfind.trans hrow, rfl⟩⟩

theorem persistOwned_triple (tx : ScimTransaction) (record : ResourceRow)
    (previous : Text) (mailbox : IdentityMailbox) (localPart domain : Text) :
    (site.persistOwned record previous mailbox localPart domain).Triple (· = tx)
      (fun _ after => ∃ next, site.Owns record previous mailbox localPart domain tx.view next ∧
          after = tx.onto next)
      (fun after => after.aborted = true ∨ after = tx) := by
  have hrefused : ∀ before : ScimTransaction, (fun after => after.aborted = true ∨ after = tx)
        { before with aborted := true } := fun _ => .inl rfl
  unfold persistOwned
  refine Triple.bind ((mailboxID_triple tx record previous).consequence
    (fun _ htx => htx) (fun _ _ hid => hid) fun _ htx => .inr htx) fun id => ?_
  refine Scim.executeReturning_bind (fun _ _ => .inl) hrefused fun domainID => ?_
  refine Scim.execute_bind (fun _ _ => .inl) hrefused ?_
  refine Scim.execute_bind (fun _ _ => .inl) hrefused ?_
  refine Scim.execute_triple (fun _ _ => .inl) hrefused ?_
  rintro _ next ⟨_, revoked, ⟨_, upserted, ⟨before, resolved, ⟨rfl, hid⟩, -,
    hdomain, rfl⟩, -, hupsert, rfl⟩, -, hrevoke, rfl⟩ - hmove
  exact ⟨next, ⟨id, domainID, resolved, upserted, revoked, hid, hdomain, hupsert,
    hrevoke, hmove⟩, rfl⟩

theorem persistAdopted_triple (tx : ScimTransaction) (record : ResourceRow)
    (mailbox : IdentityMailbox) (claim : LegacyMailboxAdoption) :
    (persistAdopted claim mailbox record.id).Triple (· = tx)
      (fun _ after => ∃ next, Adopts record mailbox claim tx.view next ∧ after = tx.onto next)
      (fun after => after.aborted = true ∨ after = tx) := by
  unfold persistAdopted
  refine Scim.executeReturning_bind (fun _ _ => .inl) (fun _ => .inl rfl)
    fun changed => Triple.guard ?_ ?_
  · rintro hchanged _ ⟨before, next, rfl, -, hwrite, rfl⟩
    rw [Directory.adoptMailbox_idle hwrite (by simpa using hchanged)]
    exact .inr rfl
  · rintro hchanged _ ⟨before, next, rfl, -, hwrite, rfl⟩
    rw [beq_iff_eq] at hchanged
    exact ⟨next, ⟨hchanged ▸ hwrite⟩, rfl⟩

theorem persistMailbox_triple (tx : ScimTransaction) (record : ResourceRow)
    (previous : Text) (mailbox : IdentityMailbox) :
    (site.persistMailbox record previous mailbox).Triple (· = tx) (fun _ after => ∃ next,
        (site.platform.parseAddress mailbox.email).any (fun parsed =>
          parsed.address == mailbox.email) = true ∧
        site.Persists record previous mailbox tx next ∧ after = tx.onto next)
      (fun after => after.aborted = true ∨ after = tx) := by
  unfold persistMailbox
  refine Triple.guard_bind (fun _ htx => .inr htx) fun hparse => ?_
  refine Triple.need_bind (fun _ htx => .inr htx) fun parts hcut => ?_
  refine Triple.ask_known ?_
  split
  · next claim hclaim =>
      obtain ⟨hsome, hmatch⟩ := Option.filter_eq_some_iff.mp hclaim
      rw [Bool.and_eq_true] at hmatch
      refine (persistAdopted_triple tx record mailbox claim).consequence
        (fun _ htx => htx) ?_ fun _ htx => htx
      rintro _ after ⟨next, hadopts, rfl⟩
      exact ⟨next, hparse, .adopted hsome hmatch.1 hmatch.2 hadopts, rfl⟩
  · next hclaim =>
      refine (persistOwned_triple tx record previous mailbox _ _).consequence
        (fun _ htx => htx) ?_ fun _ htx => htx
      rintro _ after ⟨next, howns, rfl⟩
      exact ⟨next, hparse, .owned hcut hclaim howns, rfl⟩

variable (site request) in
/-- A failed operation has made some moves. -/
theorem Reaches.of_eq (hsame : after = tx) :
    site.Reaches request tx after :=
  .inr (hsame ▸ .refl)

theorem Drafts.reaches {mailbox : IdentityMailbox} {previous : Text}
    (hdrafts : site.Drafts record mailbox previous tx after) :
    site.Reaches request tx after := by
  obtain ⟨account, verifier, -, hstored, -⟩ := hdrafts
  cases hstored with
  | owned hplace howner => exact .inr .refl
  | fresh hnone hclaim => exact .inr .refl
  | claimed hnone hclaim hplace hid hadopted =>
    exact .inr (.single (.consumed hclaim))

theorem audit_triple {pre : ScimTransaction → Prop} :
    (audit request).Triple pre (fun _ => pre) pre :=
  Triple.guard (fun _ _ htx => htx) fun _ _ htx => htx

theorem projectUser_triple {gate : IdentityGate} (hgate : request.identity = some gate)
    (htype : record.resourceType = userType) (hlive : record ∈ tx.view.resources.rows) :
    (site.projectUser request gate record).Triple (· = tx)
      (fun _ after => site.Projects request record tx after) (site.Reaches request tx) := by
  unfold projectUser
  refine Triple.bind ((mailboxFromRecord_triple tx record).consequence
    (fun _ htx => htx) (fun _ _ hdrafts => hdrafts) fun _ htx => .of_eq site request htx) ?_
  rintro ⟨mailbox, previous⟩
  refine Triple.guard_bind (fun _ hdrafts => hdrafts.reaches) fun hauthorized => ?_
  refine Triple.guard_bind (fun _ hdrafts => hdrafts.reaches) fun hvalid => ?_
  refine Triple.pointwise fun middle hdrafts => ?_
  refine Triple.bind ((persistMailbox_triple middle record previous
    mailbox).consequence (fun _ htx => htx) (fun _ _ hpersists => hpersists) ?_) fun _ => ?_
  · rintro after (haborted | rfl)
    · exact .inl haborted
    · exact hdrafts.reaches
  · refine Triple.alter_bind (audit_triple.consequence (fun _ htx => htx) ?_ ?_)
    · rintro _ _ ⟨_, ⟨next, hparse, hpersists, rfl⟩, rfl⟩
      exact ⟨gate, mailbox, previous, middle, next, hgate, hdrafts, hauthorized,
        hvalid, hparse, hpersists, rfl⟩
    · rintro _ ⟨_, ⟨next, hparse, hpersists, rfl⟩, rfl⟩
      exact .inr (.single (.projected htype hlive ⟨gate, mailbox, previous, middle,
        next, hgate, hdrafts, hauthorized, hvalid, hparse, hpersists, rfl⟩))

theorem replaceGroupMembers_triple (tx : ScimTransaction) (record : ResourceRow) :
    (site.replaceGroupMembers record).Triple (· = tx) (fun _ after => Regroups tx after)
      (fun after => after.aborted = true ∨ after = tx) := by
  unfold replaceGroupMembers
  refine Triple.of_bind (fun _ htx => .inr htx) fun document hdocument => ?_
  refine Triple.of_bind (fun _ htx => .inr htx) fun members hmembers => ?_
  refine Scim.query_bind (fun _ _ => .inl) fun live => ?_
  refine Triple.guard_bind (fun _ htx => .inr htx.1) fun hlive => ?_
  refine Scim.execute_bind (fun _ _ => .inl) (fun _ => .inl rfl) ?_
  refine Scim.execute_triple (fun _ _ => .inl) (fun _ => .inl rfl) ?_
  rintro _ next ⟨before, dropped, ⟨rfl, -⟩, -, hdrop, rfl⟩ - hinsert
  cases hdrop
  split at hinsert
  · cases hinsert
    exact ⟨_, rfl⟩
  · obtain ⟨members, rfl⟩ := Directory.insertMembers_ok hinsert
    exact ⟨members, rfl⟩

theorem replaceIndex_triple (tx : ScimTransaction) (record : ResourceRow) (item : Nat × IndexKey) :
    (site.replaceIndex record item).Triple (Reindexes tx) (fun _ => Reindexes tx)
      (fun after => after.aborted = true ∨ Reindexes tx after) := by
  unfold replaceIndex
  refine Scim.execute_bind (fun _ _ => .inl) (fun _ => .inl rfl) ?_
  refine Scim.query_bind (fun _ _ => .inl) fun found => ?_
  have hdeclared : ∀ after : ScimTransaction, (∃ before next, Reindexes tx before ∧
      before.aborted = false ∧ before.view.declareContract
        ⟨record.scope, record.resourceType, site.platform.lower item.2.name,
          item.2.caseExact, item.2.unique⟩ = .ok next ∧
      before.onto next = after) → Reindexes tx after := by
    rintro _ ⟨before, next, ⟨contracts, indexes, rfl⟩, -, hdeclare, rfl⟩
    obtain ⟨contracts, rfl⟩ := Directory.declareContract_ok hdeclare
    exact ⟨contracts, indexes, rfl⟩
  refine Triple.need_bind (fun after htx => .inr (hdeclared after htx.1))
    fun contract hcontract => ?_
  refine Triple.guard_bind (fun after htx => .inr (hdeclared after htx.1)) fun hsame => ?_
  refine Scim.execute_triple (fun _ _ => .inl) (fun _ => .inl rfl) ?_
  rintro after next ⟨hafter, -⟩ - hinsert
  obtain ⟨contracts, indexes, rfl⟩ := hdeclared after hafter
  obtain ⟨indexes, rfl⟩ := Directory.insertIndex_ok hinsert
  exact ⟨contracts, indexes, rfl⟩

theorem replaceIndexes_triple (tx : ScimTransaction) (record : ScimRecord) :
    (site.replaceIndexes record).Triple (· = tx) (fun _ after => Reindexes tx after)
      (fun after => after.aborted = true ∨ Reindexes tx after) := by
  unfold replaceIndexes
  refine Scim.execute_bind (fun _ _ => .inl) (fun _ => .inl rfl) ?_
  refine (Triple.forM fun item _ => replaceIndex_triple tx record.toResourceRow
    item).consequence ?_ (fun _ _ hmoves => hmoves) fun _ hmoves => hmoves
  rintro _ ⟨before, next, rfl, -, hdrop, rfl⟩
  cases hdrop
  exact ⟨_, _, rfl⟩

theorem projectRecord_triple (hlive : record ∈ tx.view.resources.rows) :
    (site.projectRecord request record).Triple (· = tx)
      (fun _ after => site.Follows request record tx after) (site.Reaches request tx) := by
  unfold projectRecord
  split
  · next htype =>
      refine Triple.bind ((replaceGroupMembers_triple tx record).consequence
        (fun _ htx => htx) (fun _ _ hmoves => hmoves) ?_) fun _ => ?_
      · rintro after (haborted | hsame)
        · exact .inl haborted
        · exact .of_eq site request hsame
      · exact audit_triple.consequence (fun _ hmoves => hmoves)
          (fun _ _ hmoves => .group htype hmoves) fun _ hmoves => .inr (.single (.regrouped hmoves))
  · next htype =>
      cases hidentity : request.identity with
      | none =>
        exact Triple.pure fun _ hsame => .other htype (.inl hidentity) hsame
      | some gate =>
        dsimp only
        split
        · next huser =>
            exact (projectUser_triple hidentity huser hlive).consequence
              (fun _ htx => htx) (fun _ _ hmoves => .user huser hmoves) fun _ hreaches => hreaches
        · next huser =>
            exact Triple.pure fun _ hsame => .other htype (.inr huser) hsame

theorem Follows.reaches (hlive : record ∈ tx.view.resources.rows)
    (hfollows : site.Follows request record tx after) :
    site.Reaches request tx after := by
  cases hfollows with
  | group htype hmoves => exact .inr (.single (.regrouped hmoves))
  | other htype hidle hsame => exact .of_eq site request hsame
  | user htype hmoves => exact .inr (.single (.projected htype hlive hmoves))

theorem disableProjection_triple (tx : ScimTransaction) (record : ResourceRow) (now : Time) :
    (site.disableProjection request record now).Triple (· = tx)
      (fun _ after => site.Disables request record now tx after) (site.Reaches request tx) := by
  unfold disableProjection
  cases hidentity : request.identity with
  | none => exact Triple.pure fun _ hsame => .other (.inl hidentity) hsame
  | some gate =>
    dsimp only
    split
    · next huser =>
        refine Triple.bind ((mailboxFromRecord_triple tx record).consequence
          (fun _ htx => htx) (fun _ _ hdrafts => hdrafts) fun _ htx => .of_eq site request htx) ?_
        rintro ⟨mailbox, previous⟩
        refine Triple.guard_bind (fun _ hdrafts => hdrafts.reaches) fun hauthorized => ?_
        refine Scim.execute_bind (fun _ _ => .inl) (fun _ => .inl rfl) ?_
        refine Scim.execute_bind (fun _ _ => .inl) (fun _ => .inl rfl) ?_
        refine Triple.alter ?_
        rintro _ ⟨_, next, ⟨middle, disabled, hdrafts, -, hdisable, rfl⟩, -, hrevoke, rfl⟩
        exact .user huser (by rw [hidentity]; rfl) hdrafts hdisable hrevoke rfl
    · next huser =>
        exact Triple.pure fun _ hsame => .other (.inr huser) hsame

theorem get_triple (tx : ScimTransaction) (scope resourceType id : Text) :
    (get scope resourceType id).Triple (· = tx) (fun record after => after = tx ∧
        tx.view.resource? scope resourceType id = some record.toResourceRow)
      (· = tx) := by
  unfold get
  refine Scim.query_bind (fun _ htx _ => htx) fun row => ?_
  refine Triple.need_bind (fun _ htx => htx.1) fun found hfound => ?_
  refine Scim.query_bind (fun _ htx _ => htx.1) fun indexes => Triple.pure ?_
  rintro _ ⟨⟨rfl, -, hfind⟩, -⟩
  exact ⟨rfl, hfind.trans hfound⟩

variable (site request) in
/-- A new resource and what follows from it. -/
def Creates (record : ResourceRow) (tx after : ScimTransaction) : Prop :=
  ∃ inserted indexed, Inserts record tx inserted ∧ Reindexes inserted indexed ∧
    site.Follows request record indexed after

variable (site request) in
/-- A replaced resource and what follows from it. -/
def Replaces (record : ResourceRow) (tx after : ScimTransaction) : Prop :=
  ∃ revised indexed, Revises record tx revised ∧ Reindexes revised indexed ∧
    site.Follows request record indexed after

/-- What a resource leads to once it is in the view. -/
theorem project_triple {written : ScimTransaction} {record : ScimRecord}
    (hlive : record.toResourceRow ∈ written.view.resources.rows) :
    (do site.replaceIndexes record
        site.projectRecord request record.toResourceRow : Scim Unit).Triple
      (· = written) (fun _ after => ∃ indexed, Reindexes written indexed ∧
        site.Follows request record.toResourceRow indexed after)
      (site.Reaches request written) := by
  refine Triple.bind ((replaceIndexes_triple written record).consequence
    (fun _ htx => htx) (fun _ _ hindexes => hindexes) ?_) fun _ => ?_
  · rintro after (haborted | hindexes)
    · exact .inl haborted
    · exact .inr (.single (.reindexed hindexes))
  · refine Triple.pointwise fun indexed hindexes => ?_
    rw [← hindexes.resources_eq] at hlive
    refine (projectRecord_triple hlive).consequence (fun _ htx => htx)
      (fun _ _ hfollows => ⟨indexed, hindexes, hfollows⟩) ?_
    rintro after (haborted | hmoved)
    · exact .inl haborted
    · exact .inr (.head (.reindexed hindexes) hmoved)

variable (site request) in
theorem Leaves.of_eq (call : ScimCall) (hsame : after = tx) :
    site.Leaves request call tx after :=
  ⟨tx, .inl rfl, .of_eq site request hsame⟩

variable (site request) in
theorem Leaves.of_aborted (call : ScimCall) (haborted : after.aborted = true) :
    site.Leaves request call tx after :=
  ⟨tx, .inl rfl, .inl haborted⟩

theorem create_triple (tx : ScimTransaction) (record : ScimRecord) :
    (site.create request record).Triple (· = tx)
      (fun _ after => site.Creates request record.toResourceRow tx after)
      (site.Leaves request (.create record) tx) := by
  have hidle : ∀ after, after = tx → site.Leaves request (.create record) tx after :=
    fun _ => .of_eq site request _
  have hrefused : ∀ {before after : ScimTransaction}, after.aborted = true →
      site.Leaves request (.create record) before after :=
    .of_aborted site request _
  unfold create
  refine Triple.guard_bind hidle fun hshape => ?_
  refine Triple.ask_known ?_
  refine Scim.query_bind (fun _ _ => hrefused) fun owned => ?_
  refine Triple.guard_bind (fun _ htx => hidle _ htx.1) fun howned => ?_
  refine Scim.query_bind (fun _ _ => hrefused) fun reserved => ?_
  refine Triple.guard_bind (fun _ htx => hidle _ htx.1.1) fun hreserved => ?_
  refine Scim.execute_bind (fun _ _ => hrefused) (fun _ => hrefused rfl) ?_
  refine Triple.pointwise ?_
  rintro _ ⟨_, view, ⟨⟨rfl, -⟩, -, hfree⟩, -, hinsert, rfl⟩
  obtain ⟨resources, hresources, rfl⟩ := Directory.insertResource_ok hinsert
  have hinserts : Inserts record.toResourceRow _ _ :=
    ⟨by simpa [hfree] using hreserved, resources, hresources, rfl⟩
  refine (project_triple hinserts.live).consequence (fun _ htx => htx) ?_
    fun _ hreaches => ⟨_, .inr (.inserted hinserts), hreaches⟩
  rintro _ after ⟨indexed, hindexes, hfollows⟩
  exact ⟨_, indexed, hinserts, hindexes, hfollows⟩

theorem replace_triple (tx : ScimTransaction) (record : ScimRecord) (expectedVersion : Text) :
    (site.replace request record expectedVersion).Triple (· = tx)
      (fun _ after => site.Replaces request record.toResourceRow tx after)
      (site.Leaves request (.replace record expectedVersion) tx) := by
  have hidle : ∀ after, after = tx →
      site.Leaves request (.replace record expectedVersion) tx after :=
    fun _ => .of_eq site request _
  have hrefused : ∀ {before after : ScimTransaction}, after.aborted = true →
      site.Leaves request (.replace record expectedVersion) before after :=
    .of_aborted site request _
  unfold replace
  refine Triple.guard_bind hidle fun hshape => ?_
  refine Triple.bind ((get_triple tx _ _ _).consequence (fun _ htx => htx)
    (fun _ _ hfound => hfound) hidle) fun current => ?_
  refine Triple.guard_bind (fun _ htx => hidle _ htx.1) fun hversion => ?_
  refine Triple.guard_bind (fun _ htx => hidle _ htx.1) fun hfixed => ?_
  refine Scim.query_bind (fun _ _ => hrefused) fun bound => ?_
  refine Triple.guard_bind (fun _ htx => hidle _ htx.1.1) fun hbound => ?_
  refine Scim.execute_bind (fun _ _ => hrefused) (fun _ => hrefused rfl) ?_
  refine Triple.pointwise ?_
  rintro _ ⟨_, view, ⟨⟨rfl, hfound⟩, -, hguard⟩, -, hupdate, rfl⟩
  cases Directory.updateResource_ok hupdate
  simp only [Bool.and_eq_true, beq_iff_eq] at hfixed
  have hrevises : Revises record.toResourceRow _ _ :=
    ⟨⟨current.toResourceRow, hfound, hfixed.1, hfixed.2, by
      rw [Bool.not_eq_true'] at hbound
      rw [hbound, Bool.and_eq_false_iff] at hguard
      rcases hguard with hsame | hfree
      · exact .inl (by simpa using hsame)
      · exact .inr hfree⟩, rfl⟩
  refine (project_triple hrevises.live).consequence (fun _ htx => htx) ?_
    fun _ hreaches => ⟨_, .inr (.revised expectedVersion hrevises), hreaches⟩
  rintro _ after ⟨indexed, hindexes, hfollows⟩
  exact ⟨_, indexed, hrevises, hindexes, hfollows⟩

theorem delete_triple (tx : ScimTransaction)
    (scope resourceType id expectedVersion : Text) (stone : Tombstone) :
    (site.delete request scope resourceType id expectedVersion stone).Triple (· = tx)
      (fun _ after => site.Buries request stone tx after ∧
        stone.scope = scope ∧ stone.resourceType = resourceType ∧ stone.id = id)
      (site.Leaves request (.delete scope resourceType id expectedVersion stone) tx) := by
  have hidle : ∀ after, after = tx → site.Leaves request
      (.delete scope resourceType id expectedVersion stone) tx after :=
    fun _ => .of_eq site request _
  unfold delete
  refine Triple.bind ((get_triple tx _ _ _).consequence (fun _ htx => htx)
    (fun _ _ hfound => hfound) hidle) fun current => ?_
  refine Triple.guard_bind (fun _ htx => hidle _ htx.1) fun hversion => ?_
  refine Triple.guard_bind (fun _ htx => hidle _ htx.1) fun hstone => ?_
  refine Scim.query_bind (fun _ _ => .of_aborted site request _) fun member => ?_
  refine Triple.guard_bind (fun _ htx => hidle _ htx.1.1) fun hmember => ?_
  refine Triple.pointwise ?_
  rintro _ ⟨⟨rfl, hfound⟩, -⟩
  simp only [matchesDeleted, Bool.and_eq_true, beq_iff_eq] at hstone
  obtain ⟨⟨⟨⟨⟨⟨rfl, rfl⟩, rfl⟩, hexternal⟩, -⟩, -⟩, -⟩ := hstone
  refine Triple.bind ((disableProjection_triple _ _ _).consequence
    (fun _ htx => htx) (fun _ _ hdisables => hdisables)
    fun _ hreaches => ⟨_, .inl rfl, hreaches⟩) fun _ => ?_
  refine Scim.execute_bind (fun _ _ => .of_aborted site request _)
    (fun _ => .of_aborted site request _ rfl) ?_
  refine Scim.execute_bind (fun _ _ => .of_aborted site request _)
    (fun _ => .of_aborted site request _ rfl) ?_
  refine Triple.pointwise ?_
  rintro _ ⟨_, next, ⟨middle, removed, hdisables, -, hremove, rfl⟩, -, hbury, rfl⟩
  have hburies : site.Buries request stone _ _ := ⟨current.toResourceRow, middle,
    removed, next, hfound, hexternal, hdisables, hremove, hbury, rfl⟩
  refine audit_triple.consequence (fun _ htx => htx) ?_ ?_
  · rintro _ _ rfl
    exact ⟨hburies, rfl, rfl, rfl⟩
  · rintro _ rfl
    exact ⟨_, .inr (.buried expectedVersion hburies), .inr .refl⟩

theorem list_triple (tx : ScimTransaction) (query : ScimQuery) :
    (site.list query).Triple (· = tx) (fun _ after => after = tx) (· = tx) := by
  unfold list
  refine Triple.guard_bind (fun _ htx => htx) fun hquery => ?_
  refine Scim.query_bind (fun _ htx _ => htx) fun rows => ?_
  refine Triple.guard_bind (fun _ htx => htx.1) fun hrows => ?_
  exact Scim.query_triple (fun _ htx _ => htx.1) fun _ htx _ => htx.1

theorem setPassword_triple (tx : ScimTransaction) (scope resourceType id password salt : Text) :
    (site.setPassword scope resourceType id password salt).Triple (· = tx)
      (fun _ after => ∃ passwords, after = { tx with passwords := passwords }) (· = tx) := by
  unfold setPassword
  refine Triple.guard_bind (fun _ htx => htx) fun htarget => ?_
  refine Triple.guard_bind (fun _ htx => htx) fun hlength => ?_
  refine Triple.alter_bind (Triple.pure ?_)
  rintro _ ⟨_, rfl, rfl⟩
  exact ⟨_, rfl⟩

end ScimSite

theorem Reindexes.reaches {site : ScimSite} {request : ScimRequest}
    {written indexed : ScimTransaction} (hindexes : Reindexes written indexed)
    (hlive : record ∈ written.view.resources.rows)
    (hfollows : site.Follows request record indexed after) :
    site.Reaches request written after := by
  rw [← hindexes.resources_eq] at hlive
  rcases hfollows.reaches hlive with haborted | hmoves
  · exact .inl haborted
  · exact .inr (.head (.reindexed hindexes) hmoves)

namespace ScimSite

/-- Every call leaves its opening move and what follows from it, or less. -/
theorem perform_leaves (call : ScimCall) (tx : ScimTransaction) :
    site.Leaves request call tx (site.perform request call tx).2 := by
  have hread : ∀ {α : Type} {operation : Scim α} {post : α → ScimTransaction → Prop},
      operation.Triple (· = tx) post (· = tx) →
      (∀ value after, post value after → site.Leaves request call tx after) →
      (do let _ ← operation; return () : Scim Unit).Triple (· = tx)
        (fun _ => site.Leaves request call tx) (site.Leaves request call tx) :=
    fun htriple hpost => (htriple.consequence (fun _ htx => htx) hpost
      fun _ => .of_eq site request call).bind fun _ => Triple.pure fun _ htx => htx
  suffices htriple : (site.perform request call).Triple (· = tx)
      (fun _ => site.Leaves request call tx) (site.Leaves request call tx) by
    have hresult := htriple tx rfl
    split at hresult
    · next heq => rwa [heq]
    · next heq => rwa [heq]
  cases call with
  | get scope resourceType id =>
    exact hread (get_triple tx scope resourceType id) fun _ _ htx => .of_eq site request _ htx.1
  | list query =>
    exact hread (list_triple tx query) fun _ _ => .of_eq site request _
  | create record =>
    refine (create_triple tx record).consequence (fun _ htx => htx) ?_ fun _ hleaves => hleaves
    rintro _ after ⟨inserted, indexed, hinserts, hindexes, hfollows⟩
    exact ⟨inserted, .inr (.inserted hinserts), hindexes.reaches hinserts.live hfollows⟩
  | replace record expectedVersion =>
    refine (replace_triple tx record expectedVersion).consequence
      (fun _ htx => htx) ?_ fun _ hleaves => hleaves
    rintro _ after ⟨revised, indexed, hrevises, hindexes, hfollows⟩
    exact ⟨revised, .inr (.revised expectedVersion hrevises),
      hindexes.reaches hrevises.live hfollows⟩
  | delete scope resourceType id expectedVersion stone =>
    refine (delete_triple tx scope resourceType id expectedVersion
      stone).consequence (fun _ htx => htx) ?_ fun _ hleaves => hleaves
    rintro _ after ⟨hburies, rfl, rfl, rfl⟩
    exact ⟨after, .inr (.buried expectedVersion hburies), .inr .refl⟩
  | tombstones scope resourceType =>
    exact hread (Scim.query_triple (fun _ htx _ => htx) fun _ htx _ => htx)
      fun _ _ => .of_eq site request _
  | setPassword scope resourceType id password salt =>
    refine hread (setPassword_triple tx scope resourceType id password salt) ?_
    rintro _ _ ⟨passwords, rfl⟩
    exact ⟨_, .inr (.noted scope resourceType id password salt passwords), .inr .refl⟩

variable {mailbox : IdentityMailbox} {previous : Text}

theorem Drafts.unchanged (hdrafts : site.Drafts record mailbox previous tx after) :
    after.aborted = tx.aborted ∧ after.view = tx.view ∧ after.project = tx.project := by
  obtain ⟨account, verifier, -, hstored, -⟩ := hdrafts
  cases hstored <;> exact ⟨rfl, rfl, rfl⟩

theorem Disables.aborted_eq {now : Time} (hdisables : site.Disables request record now tx after) :
    after.aborted = tx.aborted := by
  cases hdisables with
  | other hidle hsame => rw [hsame]
  | user htype hidentity hdrafts hdisable hrevoke hafter =>
    rw [hafter]
    exact hdrafts.unchanged.1

/-- A write of a mailbox leaves the other tables as they were. -/
theorem Owns.frame {localPart domain : Text} {db next : Directory}
    (howns : site.Owns record previous mailbox localPart domain db next) :
    ∃ domains mailboxes sessions tokens, next = { db with
      domains := domains
      mailboxes := mailboxes
      sessions := sessions
      tokens := tokens } := by
  obtain ⟨id, domainID, resolved, upserted, revoked, -, hdomain, hupsert, hrevoke, hmove⟩ := howns
  obtain ⟨domains, rfl, -⟩ := Directory.resolveDomain_ok hdomain
  obtain ⟨mailboxes, rfl, -⟩ := Directory.upsertMailbox_ok hupsert
  have hsessions : ∃ sessions, revoked = { db with
      domains := domains
      mailboxes := mailboxes
      sessions := sessions } := by
    split at hrevoke
    · cases hrevoke
      exact ⟨_, rfl⟩
    · cases hrevoke
      exact ⟨_, rfl⟩
  obtain ⟨sessions, rfl⟩ := hsessions
  split at hmove
  · cases hmove
    exact ⟨_, _, _, _, rfl⟩
  · obtain ⟨tokens, rfl, -⟩ := Directory.moveTokens_ok hmove
    exact ⟨_, _, _, _, rfl⟩

theorem Persists.frame {next : Directory}
    (hpersists : site.Persists record previous mailbox tx next) :
    ∃ domains mailboxes sessions tokens, next = { tx.view with
      domains := domains
      mailboxes := mailboxes
      sessions := sessions
      tokens := tokens } := by
  cases hpersists with
  | adopted hclaim hconsumed hfold hadopts =>
    obtain ⟨-, mailboxes, rfl, -⟩ := Directory.adoptMailbox_ok hadopts.written
    exact ⟨_, _, _, _, rfl⟩
  | owned hcut hclaim howns => exact howns.frame

theorem Disables.frame {now : Time} (hdisables : site.Disables request record now tx after) :
    ∃ mailboxes sessions, after.view = { tx.view with
      mailboxes := mailboxes
      sessions := sessions } := by
  cases hdisables with
  | other hidle hsame => exact ⟨_, _, by rw [hsame]⟩
  | user htype hidentity hdrafts hdisable hrevoke hafter =>
    rw [hdrafts.unchanged.2.1] at hdisable
    obtain ⟨mailboxes, rfl, -⟩ := Directory.disableMailbox_ok hdisable
    cases hrevoke
    exact ⟨_, _, by rw [hafter]⟩

theorem Opens.aborted_eq {call : ScimCall} (hopens : site.Opens request call tx after) :
    after.aborted = tx.aborted := by
  cases hopens with
  | inserted hmoves =>
    obtain ⟨_, _, _, rfl⟩ := hmoves
    rfl
  | revised expectedVersion hmoves =>
    rw [hmoves.changed]
    rfl
  | buried expectedVersion hmoves =>
    obtain ⟨_, _, _, _, _, _, hdisables, _, _, rfl⟩ := hmoves
    exact hdisables.aborted_eq
  | noted scope resourceType id password salt passwords => rfl

theorem Moves.aborted_eq (hmoves : site.Moves request tx after) : after.aborted = tx.aborted := by
  cases hmoves with
  | reindexed hmoves =>
    obtain ⟨_, _, rfl⟩ := hmoves
    rfl
  | regrouped hmoves =>
    obtain ⟨_, rfl⟩ := hmoves
    rfl
  | consumed hclaim => rfl
  | projected htype hlive hmoves =>
    obtain ⟨_, _, _, _, _, _, hdrafts, _, _, _, _, rfl⟩ := hmoves
    exact hdrafts.unchanged.1

theorem moves_invariant {fact : ScimTransaction → Prop}
    (hmoves : ∀ {tx after}, fact tx → site.Moves request tx after → fact after)
    (hsteps : Relation.ReflTransGen (site.Moves request) tx after) (hstart : fact tx) :
    fact after := by
  induction hsteps with
  | refl => exact hstart
  | tail _ hmove ih => exact hmoves ih hmove

/-- A refused statement ends the transaction. -/
theorem Leaves.aborted {call : ScimCall} (hleaves : site.Leaves request call tx after)
    (haborted : tx.aborted = true) : after.aborted = true := by
  have hkeeps : ∀ {tx after : ScimTransaction}, tx.aborted = true →
      site.Moves request tx after → after.aborted = true := by
    intro tx after htx hmove
    rw [hmove.aborted_eq, htx]
  obtain ⟨opened, hopened, hreaches⟩ := hleaves
  rcases hreaches with hrefused | hsteps
  · exact hrefused
  · refine moves_invariant hkeeps hsteps ?_
    rcases hopened with rfl | hopens
    · exact haborted
    · rw [hopens.aborted_eq, haborted]

theorem performAll_aborted (calls : List ScimCall) (haborted : tx.aborted = true) :
    (site.performAll request calls tx).aborted = true := by
  induction calls generalizing tx with
  | nil => exact haborted
  | cons call rest ih => exact ih ((perform_leaves call tx).aborted haborted)

/-- What every opening move and every move of a transaction keeps, the whole
transaction keeps, unless the database has refused a statement. -/
theorem performAll_invariant {fact : ScimTransaction → Prop}
    (calls : List ScimCall)
    (hopens : ∀ {call tx after}, call ∈ calls → fact tx → site.Opens request call tx after →
      fact after)
    (hmoves : ∀ {tx after}, fact tx → site.Moves request tx after → fact after)
    (hstart : fact tx) :
    (site.performAll request calls tx).aborted = true ∨
      fact (site.performAll request calls tx) := by
  induction calls generalizing tx with
  | nil => exact .inr hstart
  | cons call rest ih =>
    obtain ⟨opened, hopened, hreaches⟩ := perform_leaves call tx
    have hfact : fact opened := by
      rcases hopened with rfl | hopened
      · exact hstart
      · exact hopens List.mem_cons_self hstart hopened
    rcases hreaches with haborted | hsteps
    · exact .inl (performAll_aborted rest haborted)
    · exact ih (fun hcall => hopens (List.mem_cons_of_mem _ hcall))
        (moves_invariant hmoves hsteps hfact)

end ScimSite

end GotthMail
