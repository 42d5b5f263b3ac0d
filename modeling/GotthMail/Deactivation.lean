/-
What a deactivation ends.  A SCIM transaction that disables a mailbox revokes the
sessions that it sees.  A login that overlaps with it escapes: its session is
admitted at a disabled mailbox and serves again when the mailbox is enabled.
-/
import GotthMail.LoginRuns
import GotthMail.MailboxMoves

namespace GotthMail

open Bytes Relational Calls

open scoped List

variable {db next : Directory} {mailboxID : Text} {site : ScimSite} {world : AccountWorld}

namespace Directory

/-- A session belongs to a mailbox by single sign-on. -/
def Binds (db : Directory) (row : SessionRow) (mailboxID : Text) : Prop :=
  ∃ ref ∈ db.refs.rows, ref.id = row.identityRefID ∧ ref.provider = .authentik ∧
    ref.mailboxID = some mailboxID

def Disabled (db : Directory) (mailboxID : Text) : Prop :=
  ∃ mailbox ∈ db.mailboxes.rows, mailbox.id = mailboxID ∧ mailbox.enabled = false

/-- An enabled mailbox of a SCIM resource. -/
def Serving (db : Directory) (mailboxID : Text) : Prop :=
  ∃ mailbox ∈ db.mailboxes.rows, mailbox.id = mailboxID ∧
    mailbox.enabled = true ∧ mailbox.scimResourceID.isSome = true

/-- References of sessions and mailboxes lead somewhere, single sign-on is for
mailboxes of SCIM resources, and disabled mailboxes have no open sessions. -/
structure Orderly (db : Directory) : Prop where
  linked : ∀ row ∈ db.sessions.rows, ∃ ref ∈ db.refs.rows, ref.id = row.identityRefID
  owned : ∀ ref ∈ db.refs.rows, ref.provider = .authentik →
    ∀ mailboxID, ref.mailboxID = some mailboxID →
      ∃ mailbox ∈ db.mailboxes.rows, mailbox.id = mailboxID ∧ mailbox.scimResourceID.isSome = true
  settled : ∀ row ∈ db.sessions.rows, ∀ mailboxID, db.Binds row mailboxID →
    db.Disabled mailboxID → row.revokedAt.isSome = true

/-- Sessions stay, and what is revoked stays revoked. -/
def Keeps (db next : Directory) : Prop :=
  ∀ old ∈ db.sessions.rows, ∃ row ∈ next.sessions.rows, row.id = old.id ∧
    row.identityRefID = old.identityRefID ∧
    (old.revokedAt.isSome = true → row.revokedAt.isSome = true)

/-- No session is new. -/
def Inherits (db next : Directory) : Prop :=
  ∀ row ∈ next.sessions.rows, ∃ old ∈ db.sessions.rows, old.id = row.id ∧
    old.identityRefID = row.identityRefID ∧
    (old.revokedAt.isSome = true → row.revokedAt.isSome = true)

variable {row : SessionRow}

theorem Serving.not_disabled (hserving : db.Serving mailboxID) : ¬ db.Disabled mailboxID := by
  rintro ⟨other, hother, hotherID, hdisabled⟩
  obtain ⟨mailbox, hmailbox, hid, henabled, -⟩ := hserving
  have hsame := db.mailboxes.eq_of_key_eq hmailbox hother (hid.trans hotherID.symm)
  rw [hsame, hdisabled] at henabled
  cases henabled

theorem Reseats.sessions (hreseats : db.Reseats next) : db.Keeps next ∧ db.Inherits next := by
  have hsame (hsessions : next.sessions = db.sessions) : db.Keeps next ∧ db.Inherits next := by
    constructor <;> intro old hold
    · exact ⟨old, hsessions ▸ hold, rfl, rfl, id⟩
    · exact ⟨old, hsessions ▸ hold, rfl, rfl, id⟩
  have hrevoked {resourceID : Text} (hsessions : Revokes resourceID db next) :
      db.Keeps next ∧ db.Inherits next := by
    obtain ⟨now, hrows⟩ := hsessions
    constructor
    · intro old hold
      refine ⟨_, hrows ▸ List.mem_map_of_mem hold, ?_⟩
      split <;> simp
    · intro row hrow
      rw [hrows] at hrow
      obtain ⟨old, hold, rfl⟩ := List.mem_map.mp hrow
      refine ⟨old, hold, ?_⟩
      split <;> simp
  cases hreseats with
  | untouched hmailboxes hsessions => exact hsame hsessions
  | adopted howner hmailboxes hsessions => exact hsame hsessions
  | written howner hmailboxes hsessions =>
    exact hsessions.elim (fun hkept => hsame hkept.2) hrevoked
  | disabled hmailboxes hsessions => exact hrevoked hsessions

theorem not_adoptable {id : Text} {mailbox : DirectoryMailbox}
    (howner : mailbox.scimResourceID.isSome = true) : ¬ adoptable id mailbox = true := by
  intro hadoptable
  simp only [adoptable, Bool.and_eq_true, Option.isNone_iff_eq_none] at hadoptable
  rw [hadoptable.2] at howner
  cases howner

/-- A mailbox of a resource stays one. -/
theorem Reseats.owned (hreseats : db.Reseats next) {old : DirectoryMailbox}
    (hold : old ∈ db.mailboxes.rows) (howner : old.scimResourceID.isSome = true) :
    ∃ mailbox ∈ next.mailboxes.rows, mailbox.id = old.id ∧
      mailbox.scimResourceID.isSome = true := by
  cases hreseats with
  | untouched hmailboxes hsessions => exact ⟨old, hmailboxes ▸ hold, rfl, howner⟩
  | adopted hresource hmailboxes hsessions =>
    refine ⟨_, hmailboxes ▸ List.mem_map_of_mem hold, ?_⟩
    rw [if_neg (not_adoptable howner)]
    exact ⟨rfl, howner⟩
  | @written mailbox resourceID hresource hmailboxes hsessions =>
    by_cases hsame : old.id = mailbox.id
    · refine ⟨mailbox, ?_, hsame.symm, by simp [hresource]⟩
      rw [hmailboxes]
      exact mem_upserted.mpr (.inl rfl)
    · refine ⟨old, ?_, rfl, howner⟩
      rw [hmailboxes]
      exact mem_upserted.mpr (.inr ⟨hold, hsame⟩)
  | disabled hmailboxes hsessions =>
    refine ⟨_, hmailboxes ▸ List.mem_map_of_mem hold, ?_⟩
    split <;> exact ⟨rfl, howner⟩

/-- No session of the resource is left open. -/
theorem Revokes.closed {resourceID : Text} (hrevokes : Revokes resourceID db next)
    {mailbox : DirectoryMailbox} (hmailbox : mailbox ∈ next.mailboxes.rows)
    (howner : mailbox.scimResourceID = some resourceID)
    (hrow : row ∈ next.sessions.rows) (hbinds : next.Binds row mailbox.id) :
    row.revokedAt.isSome = true := by
  obtain ⟨now, hrows⟩ := hrevokes
  rw [hrows] at hrow
  obtain ⟨old, hold, rfl⟩ := List.mem_map.mp hrow
  obtain ⟨ref, href, hid, hprovider, hbound⟩ := hbinds
  split
  · rfl
  · next hopen =>
      rw [if_neg hopen] at hid
      have hboundTo : next.boundTo resourceID ref = true := by
        simp only [boundTo, Bool.and_eq_true, beq_iff_eq, List.any_eq_true]
        exact ⟨hprovider, mailbox, hmailbox, hbound, howner⟩
      simp only [revocable, Bool.and_eq_true, List.any_eq_true, beq_iff_eq,
        not_and, Option.isNone_iff_eq_none] at hopen
      by_contra hnone
      rw [Option.not_isSome_iff_eq_none] at hnone
      exact hopen hnone ⟨ref, href, hid, hboundTo⟩

/-- A disabled mailbox was disabled before, or the sessions it has are revoked. -/
theorem Reseats.settled (horderly : db.Orderly) (hreseats : db.Reseats next)
    (hrefs : next.refs = db.refs) (hrow : row ∈ next.sessions.rows)
    (hbinds : next.Binds row mailboxID) (hdisabled : next.Disabled mailboxID) :
    row.revokedAt.isSome = true := by
  obtain ⟨old, hold, -, hlink, hmonotone⟩ := hreseats.sessions.2 row hrow
  have hearlier : db.Disabled mailboxID → row.revokedAt.isSome = true := by
    intro hbefore
    refine hmonotone (horderly.settled old hold mailboxID ?_ hbefore)
    obtain ⟨ref, href, hid, hbound⟩ := hbinds
    exact ⟨ref, hrefs ▸ href, hid.trans hlink.symm, hbound⟩
  obtain ⟨mailbox, hmailbox, rfl, henabled⟩ := hdisabled
  cases hreseats with
  | untouched hmailboxes hsessions =>
    exact hearlier ⟨mailbox, hmailboxes ▸ hmailbox, rfl, henabled⟩
  | adopted howner hmailboxes hsessions =>
    rw [hmailboxes] at hmailbox
    obtain ⟨before, hbefore, rfl⟩ := List.mem_map.mp hmailbox
    split at henabled
    · next hadoptable =>
        -- Nobody signs on at a mailbox without a resource.
        rw [if_pos hadoptable] at hbinds
        obtain ⟨ref, href, -, hprovider, hbound⟩ := hbinds
        obtain ⟨other, hother, hsame, howned⟩ := horderly.owned ref
          (hrefs ▸ href) hprovider _ hbound
        rw [db.mailboxes.eq_of_key_eq hother hbefore hsame] at howned
        exact absurd hadoptable (not_adoptable howned)
    · next hadoptable =>
        rw [if_neg hadoptable] at hearlier
        exact hearlier ⟨before, hbefore, rfl, henabled⟩
  | @written written resourceID howner hmailboxes hsessions =>
    have hcases := hmailbox
    rw [hmailboxes] at hcases
    rcases mem_upserted.mp hcases with rfl | ⟨hbefore, -⟩
    · rcases hsessions with ⟨hactive, -⟩ | hrevokes
      · rw [henabled] at hactive
        cases hactive
      · exact hrevokes.closed hmailbox howner hrow hbinds
    · exact hearlier ⟨mailbox, hbefore, rfl, henabled⟩
  | @disabled resourceID now hmailboxes hsessions =>
    by_cases howner : mailbox.scimResourceID = some resourceID
    · exact hsessions.closed hmailbox howner hrow hbinds
    · rw [hmailboxes] at hmailbox
      obtain ⟨before, hbefore, rfl⟩ := List.mem_map.mp hmailbox
      split at howner
      · next hmatch => exact absurd (beq_iff_eq.mp hmatch) howner
      · next hmatch =>
          rw [if_neg hmatch] at henabled hearlier
          exact hearlier ⟨before, hbefore, rfl, henabled⟩

theorem Orderly.reseats (horderly : db.Orderly) (hreseats : db.Reseats next)
    (hrefs : next.refs = db.refs) : next.Orderly where
  linked := by
    intro row hrow
    obtain ⟨old, hold, -, hlink, -⟩ := hreseats.sessions.2 row hrow
    obtain ⟨ref, href, hid⟩ := horderly.linked old hold
    exact ⟨ref, hrefs ▸ href, hid.trans hlink⟩
  owned := by
    intro ref href hprovider mailboxID hbound
    obtain ⟨old, hold, rfl, howner⟩ := horderly.owned ref (hrefs ▸ href) hprovider mailboxID hbound
    exact hreseats.owned hold howner
  settled := fun _ hrow _ => hreseats.settled horderly hrefs hrow

theorem Keeps.trans {middle : Directory} (hfirst : db.Keeps middle)
    (hsecond : middle.Keeps next) : db.Keeps next := by
  intro old hold
  obtain ⟨between, hbetween, hid, hlink, hrevoked⟩ := hfirst old hold
  obtain ⟨row, hrow, hrowID, hrowLink, hrowRevoked⟩ := hsecond between hbetween
  exact ⟨row, hrow, hrowID.trans hid, hrowLink.trans hlink, hrowRevoked ∘ hrevoked⟩

end Directory

/-- What a transaction commits is orderly when its snapshot was. -/
theorem ScimSite.transact_orderly {site : ScimSite} {batch : ScimBatch}
    {base view : Directory} (horderly : base.Orderly)
    (htransact : site.transact batch base = some view) :
    view.Orderly ∧ view.refs = base.refs ∧ base.Keeps view := by
  have hreseats : ∀ {tx after : ScimTransaction},
      tx.view.Orderly ∧ tx.view.refs = base.refs ∧ base.Keeps tx.view →
      tx.view.Reseats after.view ∧ after.view.refs = tx.view.refs →
      after.view.Orderly ∧ after.view.refs = base.refs ∧ base.Keeps after.view := by
    rintro tx after ⟨htx, hrefs, hkeeps⟩ ⟨hreseats, hsame⟩
    exact ⟨htx.reseats hreseats hsame, hsame.trans hrefs, hkeeps.trans hreseats.sessions.1⟩
  obtain ⟨tx, rfl, hview⟩ := transact_invariant (fun _ htx hopens => hreseats htx hopens.reseats)
    (fun htx hmoves => hreseats htx hmoves.reseats) htransact
    ⟨horderly, rfl, fun old hold => ⟨old, hold, rfl, rfl, id⟩⟩
  exact hview

section Commits

variable {transaction : Thread} {base view : Directory}

/-- A committed session is one of the transaction, or admitted since it began. -/
theorem Advances.merged_session (hadvances : Advances transaction base world)
    {sessions : Table SessionRow SessionRow.id}
    (hmerge : Table.merge base.sessions view.sessions world.db.sessions =
      some sessions) {row : SessionRow} (hrow : row ∈ sessions.rows) :
    row ∈ view.sessions.rows ∨ ∃ login subject mailboxID session,
      row = session.row ∧ (∃ ref ∈ world.db.refs.rows,
        ref.id = row.identityRefID ∧ ref.mailboxID = some mailboxID) ∧
      Since transaction login subject mailboxID session world.journal := by
  rw [Table.mem_rows_iff, Table.find?_merge hmerge] at hrow
  split at hrow
  · next hsame =>
      refine (hadvances.newSessions row (Table.mem_rows_iff.mpr hrow)).imp_left ?_
      intro hbase
      rw [Table.mem_rows_iff] at hbase ⊢
      rw [hsame, hbase]
  · exact .inl (Table.mem_rows_iff.mpr hrow)

theorem keeps_merged (hkeeps : base.Keeps view)
    (hmerge : Table.merge base.sessions view.sessions world.db.sessions =
      some next.sessions) : world.db.Keeps next := by
  intro old hold
  have hfind := Table.find?_merge hmerge old.id
  have hcurrent := Table.mem_rows_iff.mp hold
  by_cases hsame : view.sessions.find? old.id = base.sessions.find? old.id
  · rw [if_pos hsame, hcurrent] at hfind
    exact ⟨old, Table.mem_rows_iff.mpr hfind, rfl, rfl, id⟩
  · -- What the transaction has revoked, nobody else has touched.
    have huntouched := (Table.not_collides (Table.merge_eq_some_iff.mp hmerge).1
      old.id).resolve_left hsame
    obtain ⟨row, hrow, hid, hlink, hrevoked⟩ := hkeeps old
      (Table.mem_rows_iff.mpr (huntouched ▸ hcurrent))
    rw [if_neg hsame, ← hid, Table.mem_rows_iff.mp hrow] at hfind
    exact ⟨row, Table.mem_rows_iff.mpr hfind, hid, hlink, hrevoked⟩

/-- A commit keeps the database orderly, unless a login has overlapped with it. -/
theorem Advances.commit_orderly (hadvances : Advances transaction base world)
    (hview : view.Orderly) (hrefs : view.refs = base.refs)
    (hmerge : Directory.merge base view world.db = some next)
    (hapart : ∀ login subject mailboxID session,
      Since transaction login subject mailboxID session world.journal →
        next.Serving mailboxID) : next.Orderly := by
  obtain ⟨refs, sessions, rfl, hmergedRefs, hmergedSessions⟩ :=
    Directory.merge_alike hadvances.alike hmerge
  rw [hrefs] at hmergedRefs
  have hmem : ∀ {ref}, ref ∈ refs.rows ↔ ref ∈ world.db.refs.rows :=
    Table.mem_merge_self hmergedRefs
  refine ⟨?_, ?_, ?_⟩
  · intro row hrow
    rcases hadvances.merged_session hmergedSessions hrow with
      hrow | ⟨_, _, _, _, -, ⟨ref, href, hid, -⟩, -⟩
    · obtain ⟨ref, href, hid⟩ := hview.linked row hrow
      exact ⟨ref, hmem.mpr (hadvances.keptRefs ref (hrefs ▸ href)), hid⟩
    · exact ⟨ref, hmem.mpr href, hid⟩
  · intro ref href hprovider mailboxID hbound
    rcases hadvances.newRefs ref (hmem.mp href) with
      hbase | ⟨login, _, session, hsame, hsince⟩
    · exact hview.owned ref (hrefs ▸ hbase) hprovider mailboxID hbound
    · cases hsame.symm.trans hbound
      obtain ⟨mailbox, hmailbox, hid, -, howner⟩ := hapart _ _ _ _ hsince
      exact ⟨mailbox, hmailbox, hid, howner⟩
  · intro row hrow mailboxID hbinds hdisabled
    obtain ⟨ref, href, hid, hprovider, hbound⟩ := hbinds
    rcases hadvances.merged_session hmergedSessions hrow with
      hrow | ⟨_, _, _, _, -, ⟨other, hother, hotherID, hserved⟩, hsince⟩
    · obtain ⟨known, hknown, hknownID⟩ := hview.linked row hrow
      -- The reference is the one that the snapshot had.
      have hsame := world.db.refs.eq_of_key_eq
        (hadvances.keptRefs known (hrefs ▸ hknown)) (hmem.mp href) (hknownID.trans hid.symm)
      refine hview.settled row hrow mailboxID ?_ hdisabled
      exact ⟨ref, hsame ▸ hknown, hid, hprovider, hbound⟩
    · have hsame := world.db.refs.eq_of_key_eq hother (hmem.mp href) (hotherID.trans hid.symm)
      rw [hsame, hbound] at hserved
      cases hserved
      exact absurd hdisabled (hapart _ _ _ _ hsince).not_disabled

end Commits

section Admissions

variable {subject : Text} {session : Session}

theorem Directory.Admits.keeps (hadmits : Directory.Admits subject mailboxID session db next) :
    db.Keeps next := by
  obtain ⟨_, _, sessions, rfl, hrows, -⟩ := hadmits
  intro old hold
  refine ⟨old, ?_, rfl, rfl, id⟩
  simp [hrows, hold]

theorem Directory.Admits.subset (hadmits : Directory.Admits subject mailboxID session db next) :
    ∀ ref ∈ db.refs.rows, ref ∈ next.refs.rows := by
  obtain ⟨refs, _, _, rfl, -, -, -, -, -, -, rfl | hadded⟩ := hadmits
  · exact fun _ href => href
  · intro ref href
    simp [hadded, href]

theorem Directory.Admits.binds (hadmits : Directory.Admits subject mailboxID session db next) :
    ∃ row ∈ next.sessions.rows, row.id = session.id ∧ next.Binds row mailboxID := by
  obtain ⟨refs, ref, sessions, rfl, hrows, href, hid, hprovider, -, hbound, -⟩ := hadmits
  refine ⟨session.row, ?_, rfl, ref, href, hid, hprovider, hbound⟩
  simp [hrows]

/-- An admission at an enabled mailbox keeps the database orderly. -/
theorem Directory.Admits.orderly (hadmits : Directory.Admits subject mailboxID session db next)
    (horderly : db.Orderly) (hserving : db.Serving mailboxID) : next.Orderly := by
  have hsubset := hadmits.subset
  obtain ⟨refs, ref, sessions, rfl, hrows, href, hid, hprovider, -, hbound, hadded⟩ := hadmits
  refine ⟨?_, ?_, ?_⟩
  · intro row hrow
    rw [hrows, List.mem_append, List.mem_singleton] at hrow
    rcases hrow with hrow | rfl
    · obtain ⟨known, hknown, hlink⟩ := horderly.linked row hrow
      exact ⟨known, hsubset known hknown, hlink⟩
    · exact ⟨ref, href, hid⟩
  · intro other hother hotherProvider otherID hotherBound
    have hcases : other ∈ db.refs.rows ∨ other = ref := by
      rcases hadded with rfl | hadded
      · exact .inl hother
      · simpa [hadded] using hother
    rcases hcases with hother | rfl
    · exact horderly.owned other hother hotherProvider otherID hotherBound
    · cases hbound.symm.trans hotherBound
      obtain ⟨mailbox, hmailbox, hmailboxID, -, howner⟩ := hserving
      exact ⟨mailbox, hmailbox, hmailboxID, howner⟩
  · rintro row hrow otherID ⟨other, hother, hotherID, hotherProvider, hotherBound⟩ hdisabled
    rw [hrows, List.mem_append, List.mem_singleton] at hrow
    rcases hrow with hrow | rfl
    · obtain ⟨known, hknown, hlink⟩ := horderly.linked row hrow
      have hsame := refs.eq_of_key_eq (hsubset known hknown) hother (hlink.trans hotherID.symm)
      exact horderly.settled row hrow otherID
        ⟨other, hsame ▸ hknown, hotherID, hotherProvider, hotherBound⟩ hdisabled
    · have hsame := refs.eq_of_key_eq href hother (hid.trans hotherID.symm)
      rw [hsame, hotherBound] at hbound
      cases hbound
      exact absurd hdisabled hserving.not_disabled

end Admissions

/-- A session that will not be used again. -/
def Directory.Revoked (db : Directory) (sessionID : Text) : Prop :=
  ∃ row ∈ db.sessions.rows, row.id = sessionID ∧ row.revokedAt.isSome = true

theorem Directory.Keeps.revoked {db next : Directory} {sessionID : Text}
    (hkeeps : db.Keeps next) (hrevoked : db.Revoked sessionID) :
    next.Revoked sessionID := by
  obtain ⟨old, hold, rfl, hsome⟩ := hrevoked
  obtain ⟨row, hrow, hid, -, hmonotone⟩ := hkeeps old hold
  exact ⟨row, hrow, hid, hmonotone hsome⟩

theorem Directory.Revoked.boundSession {db : Directory} {sessionID : Text}
    (hrevoked : db.Revoked sessionID) (locale : Locale) (now : Time) :
    db.boundSession locale sessionID now = none := by
  obtain ⟨row, hrow, rfl, hsome⟩ := hrevoked
  have hrows : db.sessionRows row.id now = none := by
    rw [sessionRows, Table.mem_rows_iff.mp hrow, Option.eq_none_iff_forall_ne_some]
    intro found hfound
    simp only [Option.bind_eq_bind, Option.bind_some, Option.bind_eq_some_iff,
      Option.ite_none_right_eq_some, Bool.and_eq_true, Option.isNone_iff_eq_none] at hfound
    obtain ⟨_, -, _, -, _, -, _, -, ⟨⟨⟨hnone, -⟩, -⟩, -⟩, -⟩ := hfound
    rw [hnone] at hsome
    cases hsome
  rw [Directory.boundSession, hrows, Option.map_none, ite_self]

/-- No mailbox of a resource is enabled. -/
def Directory.Suspended (db : Directory) (resourceID : Text) : Prop :=
  ∀ mailbox ∈ db.mailboxes.rows, mailbox.scimResourceID = some resourceID → mailbox.enabled = false

/-- A resource has one mailbox. -/
theorem Directory.suspended_of_mem {resourceID : Text} {mailbox : DirectoryMailbox}
    (hmailbox : mailbox ∈ db.mailboxes.rows) (howner : mailbox.scimResourceID = some resourceID)
    (hdisabled : mailbox.enabled = false) : db.Suspended resourceID := by
  intro other hother hsame
  have hunique := db.mailboxes.constraint
  rw [Bool.and_eq_true, decide_eq_true_iff, decide_eq_true_iff] at hunique
  by_contra henabled
  have hne : other ≠ mailbox := by
    rintro rfl
    exact henabled hdisabled
  have hsymm : Std.Symm fun first second : DirectoryMailbox =>
      ∀ id, first.scimResourceID = some id → ∀ other, second.scimResourceID = some other →
        id ≠ other :=
    ⟨fun _ _ hapart id hid other hother => (hapart other hother id hid).symm⟩
  exact (List.pairwise_filterMap.mp hunique.2).forall hother hmailbox hne resourceID hsame
    resourceID howner rfl

/-- The calls that write nothing to the database. -/
def ScimCall.idle : ScimCall → Bool
  | .create _ | .replace _ _ | .delete _ _ _ _ _ => false
  | _ => true

namespace ScimSite

variable {request : ScimRequest} {resourceID : Text} {call : ScimCall} {tx after : ScimTransaction}
  {record : ResourceRow}

/-- The calls that take a user out of service: a replacement that is not active,
and a deletion. -/
inductive Suspends (site : ScimSite) (resourceID : Text) : ScimCall → Prop
  | replaced {record : ScimRecord} (expectedVersion : Text)
      (htype : record.resourceType = userType) (hid : record.id = resourceID)
      (hinactive : (site.describe record.toResourceRow).map IdentityMailbox.active = .ok false) :
      Suspends site resourceID (.replace record expectedVersion)
  | deleted (scope expectedVersion : Text) (stone : Tombstone) :
      Suspends site resourceID (.delete scope userType resourceID expectedVersion stone)

/-- On a snapshot the last call of a batch that writes anything takes a user out of
service, and it succeeds. -/
structure Deactivates (site : ScimSite) (batch : ScimBatch) (resourceID : Text)
    (base : Directory) : Prop where
  identity : batch.request.identity.isSome = true
  succeeds : ∃ earlier call later, batch.calls = earlier ++ call :: later ∧
    site.Suspends resourceID call ∧ (∀ other ∈ later, other.idle = true) ∧
    (site.perform batch.request call
      (site.performAll batch.request earlier (begin batch.claim base))).1 = .ok ()

theorem perform_idle (hidle : call.idle = true) :
    (site.perform request call tx).2.view = tx.view := by
  have hread : ∀ {α : Type} {operation : Scim α} {post : α → ScimTransaction → Prop},
      operation.Triple (· = tx) post (· = tx) →
      (∀ value after, post value after → after.view = tx.view) →
      ((do let _ ← operation; return () : Scim Unit) tx).2.view = tx.view := by
    intro α operation post htriple hpost
    have hresult : (do let _ ← operation; return () : Scim Unit).Triple (· = tx)
        (fun _ after => after.view = tx.view) (fun after => after.view = tx.view) :=
      (htriple.consequence (fun _ htx => htx) hpost
        fun after hsame => congrArg ScimTransaction.view hsame).bind
        fun _ => Effect.Triple.pure fun _ hview => hview
    replace hresult := hresult tx rfl
    split at hresult
    · next heq => rwa [heq]
    · next heq => rwa [heq]
  cases call with
  | get scope resourceType id =>
    exact hread (get_triple tx scope resourceType id) fun _ _ hsame => hsame.1 ▸ rfl
  | list query => exact hread (list_triple tx query) fun _ _ hsame => hsame ▸ rfl
  | tombstones scope resourceType =>
    have hquery : (site.tombstones scope resourceType).Triple (· = tx) (fun _ after => after = tx)
        (· = tx) := Scim.query_triple (fun _ htx _ => htx) fun _ htx _ => htx
    exact hread hquery fun _ _ hsame => hsame ▸ rfl
  | setPassword scope resourceType id password salt =>
    refine hread (setPassword_triple tx scope resourceType id password salt) ?_
    rintro _ _ ⟨passwords, rfl⟩
    rfl
  | create record => cases hidle
  | replace record expectedVersion => cases hidle
  | delete scope resourceType id expectedVersion stone => cases hidle

theorem performAll_idle {calls : List ScimCall} (hidle : ∀ call ∈ calls, call.idle = true) :
    (site.performAll request calls tx).view = tx.view := by
  induction calls generalizing tx with
  | nil => rfl
  | cons call rest ih =>
    exact (ih fun other hother => hidle other (List.mem_cons_of_mem _ hother)).trans
      (perform_idle (hidle call List.mem_cons_self))

theorem Owns.seats {mailbox : IdentityMailbox} {previous localPart domain : Text}
    {db next : Directory}
    (howns : site.Owns record previous mailbox localPart domain db next) :
    ∃ row ∈ next.mailboxes.rows, row.scimResourceID = some record.id ∧
      row.enabled = mailbox.active := by
  obtain ⟨id, domainID, resolved, upserted, revoked, -, hdomain, hupsert, hrevoke, hmove⟩ := howns
  obtain ⟨mailboxes, rfl, htable⟩ := Directory.upsertMailbox_ok hupsert
  have hrevoked : revoked.mailboxes = mailboxes := by
    split at hrevoke <;> cases hrevoke <;> rfl
  have hnext : next.mailboxes = revoked.mailboxes := by
    split at hmove
    · cases hmove
      rfl
    · obtain ⟨tokens, rfl, -⟩ := Directory.moveTokens_ok hmove
      rfl
  refine ⟨mailboxRow id domainID localPart mailbox record.id, ?_, rfl, rfl⟩
  rw [hnext, hrevoked, htable]
  exact Directory.mem_upserted.mpr (.inl rfl)

/-- The mailbox of a user that is not active is written as disabled. -/
theorem Projects.suspends (hprojects : site.Projects request record tx after)
    (hinactive : (site.describe record).map IdentityMailbox.active = .ok false) :
    after.view.Suspended record.id := by
  obtain ⟨_, mailbox, _, middle, next, _, ⟨account, _, hdescribe, -, hmailbox⟩, _, _, _,
    hpersists, rfl⟩ := hprojects
  have hactive : mailbox.active = false := by
    rw [hdescribe] at hinactive
    rw [hmailbox]
    exact Except.ok.inj hinactive
  cases hpersists with
  | @adopted claim hclaim hconsumed hfold hadopts =>
    obtain ⟨hcount, mailboxes, rfl, htable⟩ := Directory.adoptMailbox_ok hadopts.written
    obtain ⟨row, hrow⟩ : ∃ row, row ∈ middle.view.mailboxes.rows.filter
        (Directory.adoptable claim.mailboxID) :=
      List.exists_mem_of_length_pos (hcount ▸ Nat.one_pos)
    obtain ⟨hrow, hadoptable⟩ := List.mem_filter.mp hrow
    have hadopted : Directory.adopt (mailboxRow [] [] [] mailbox record.id) row ∈
        mailboxes.rows := by
      rw [htable]
      exact List.mem_map.mpr ⟨row, hrow, if_pos hadoptable⟩
    exact Directory.suspended_of_mem hadopted rfl hactive
  | owned hcut hclaim howns =>
    obtain ⟨row, hrow, howner, henabled⟩ := howns.seats
    exact Directory.suspended_of_mem hrow howner (henabled.trans hactive)

theorem Buries.suspends {stone : Tombstone} (hburies : site.Buries request stone tx after)
    (htype : stone.resourceType = userType) (hidentity : request.identity.isSome = true) :
    after.view.Suspended stone.id := by
  obtain ⟨current, middle, removed, next, hfind, -, hdisables, hremove, hbury, rfl⟩ := hburies
  obtain ⟨-, -, hcurrentType, hid⟩ := Directory.resource?_eq_some hfind
  obtain ⟨_, _, rfl⟩ := Directory.deleteResource_ok hremove
  obtain ⟨_, rfl, -⟩ := Directory.insertTombstone_ok hbury
  cases hdisables with
  | other hidle hsame =>
    rcases hidle with hnone | hother
    · rw [hnone] at hidentity
      cases hidentity
    · exact absurd (hcurrentType.trans htype) hother
  | user _ _ hdrafts hdisable hrevoke hafter =>
    obtain ⟨mailboxes, rfl, hrows⟩ := Directory.disableMailbox_ok hdisable
    cases hrevoke
    rw [hafter, ← hid]
    intro mailbox hmailbox howner
    change mailbox ∈ mailboxes.rows at hmailbox
    rw [hrows] at hmailbox
    obtain ⟨old, -, rfl⟩ := List.mem_map.mp hmailbox
    split at howner <;> simp_all

/-- A call that takes a user out of service and succeeds leaves the mailbox of the user
disabled. -/
theorem perform_disables (hsuspends : site.Suspends resourceID call)
    (hidentity : request.identity.isSome = true) (hok : (site.perform request call tx).1 = .ok ()) :
    (site.perform request call tx).2.view.Suspended resourceID := by
  cases hsuspends with
  | @replaced record expectedVersion htype hid hinactive =>
    obtain ⟨_, indexed, -, -, hfollows⟩ : site.Replaces request record.toResourceRow tx
        (site.replace request record expectedVersion tx).2 :=
      (replace_triple tx record expectedVersion).returned rfl (Prod.ext hok rfl)
    rw [← hid]
    cases hfollows with
    | group hgroup => exact absurd (htype.symm.trans hgroup) (by decide)
    | other _ hidle =>
      rcases hidle with hnone | hother
      · rw [hnone] at hidentity
        cases hidentity
      · exact absurd htype hother
    | user _ hprojects => exact hprojects.suspends hinactive
  | deleted scope expectedVersion stone =>
    obtain ⟨hburies, -, htype, rfl⟩ := (delete_triple tx scope userType resourceID
      expectedVersion stone).returned rfl (Prod.ext hok rfl)
    exact hburies.suspends htype hidentity

/-- What a batch commits that takes a user out of service. -/
theorem Deactivates.suspends {batch : ScimBatch} {base view : Directory}
    (hdeactivates : site.Deactivates batch resourceID base)
    (htransact : site.transact batch base = some view) : view.Suspended resourceID := by
  obtain ⟨hidentity, earlier, call, later, hcalls, hsuspends, hidle, hok⟩ := hdeactivates
  obtain ⟨-, rfl⟩ := transact_view htransact
  have hlast := perform_disables hsuspends hidentity hok
  rwa [← performAll_idle hidle, performAll, performAll, ← List.foldl_cons
    (f := fun tx call => (site.perform batch.request call tx).2), ← List.foldl_append,
    ← hcalls] at hlast

end ScimSite

/-- What deactivations have ended so far: the sessions that they saw, and those
of the logins that had begun. -/
structure Ends (site : ScimSite) (jobs : Thread → AccountJob) (world : AccountWorld) : Prop where
  orderly : world.db.Orderly
  snapshot : ∀ {transaction base}, world.holder = some (transaction, base) → base.Orderly
  admitted : ∀ {login subject mailboxID session},
    .admitted login subject mailboxID session ∈ world.journal →
      ∃ row ∈ world.db.sessions.rows, row.id = session.id ∧ world.db.Binds row mailboxID
  worked : ∀ {transaction base after}, .committed transaction base after ∈ world.journal →
    ∃ batch view, jobs transaction = .provision batch ∧ site.transact batch base = some view ∧
      after.mailboxes = view.mailboxes
  seen : ∀ {transaction base after mailboxID},
    .committed transaction base after ∈ world.journal → after.Disabled mailboxID →
      ∀ row ∈ after.sessions.rows, after.Binds row mailboxID → world.db.Revoked row.id
  begun : ∀ {transaction base after login subject mailboxID session},
    [.committed transaction base after, .entered login] <+ world.journal →
      .admitted login subject mailboxID session ∈ world.journal →
      after.Disabled mailboxID → world.db.Revoked session.id

/-- The finding of a login: its mailbox serves. -/
abbrev serves (db : Directory) (_subject mailboxID : Text) : Prop := db.Serving mailboxID

theorem serves_finding (locale : Locale) : Finding locale serves where
  found := by
    intro db subject candidate hcandidate
    obtain ⟨resource, -, mailbox, hmailbox, hid, henabled, howner, -⟩ :=
      Directory.mem_loginCandidates hcandidate
    exact ⟨mailbox, hmailbox, hid, henabled, by simp [howner]⟩
  kept := fun _ _ hserving => hserving

section Runs

variable {jobs : Thread → AccountJob} {after : AccountWorld} {thread : Thread}

theorem Ends.release (hends : Ends site jobs world) (thread : Thread) :
    Ends site jobs (world.release thread) :=
  ⟨hends.orderly, fun hholder => hends.snapshot (Option.filter_eq_some_iff.mp
    hholder).1, hends.admitted, hends.worked, hends.seen, hends.begun⟩

/-- An entry that is neither an admission nor a commit ends nothing. -/
theorem Ends.note (hends : Ends site jobs world) {entry : AccountEntry}
    (hdb : after.db = world.db) (hjournal : after.journal = entry :: world.journal)
    (hentry : (∃ login, entry = .entered login) ∨ ∃ transaction, entry = .began transaction)
    (hsnapshot : ∀ {transaction base}, after.holder = some (transaction, base) →
      base.Orderly) : Ends site jobs after := by
  have hcommitted : ∀ {transaction base db}, .committed transaction base db ≠ entry := by
    rintro transaction base db rfl
    simp at hentry
  have hadmitted : ∀ {login subject mailboxID session},
      .admitted login subject mailboxID session ≠ entry := by
    rintro login subject mailboxID session rfl
    simp at hentry
  refine ⟨hdb ▸ hends.orderly, hsnapshot, ?_, ?_, ?_, ?_⟩
  · intro login subject mailboxID session hmem
    rw [hjournal] at hmem
    rw [hdb]
    exact hends.admitted ((List.mem_cons.mp hmem).resolve_left hadmitted)
  · intro transaction base db hmem
    rw [hjournal] at hmem
    exact hends.worked ((List.mem_cons.mp hmem).resolve_left hcommitted)
  · intro transaction base db mailboxID hmem
    rw [hjournal] at hmem
    rw [hdb]
    exact hends.seen ((List.mem_cons.mp hmem).resolve_left hcommitted)
  · intro transaction base db login subject mailboxID session horder hmem
    rw [hjournal] at horder hmem
    rw [hdb]
    rcases List.cons_sublist_cons'.mp horder with horder | ⟨hsame, -⟩
    · exact hends.begun horder ((List.mem_cons.mp hmem).resolve_left hadmitted)
    · exact absurd hsame hcommitted

theorem Ends.admitLogin (hends : Ends site jobs world) (htracks : Tracks world)
    {subject mailboxID : Text} {session : Session} {db : Directory}
    (hgrounded : Grounded serves thread subject mailboxID world)
    (hadmits : Directory.Admits subject mailboxID session world.db db) (hapart : ¬ Overlaps serves
      (.admitted thread subject mailboxID session :: world.journal)) :
    Ends site jobs (world.admitLogin thread subject mailboxID session db) := by
  have hserving := htracks.admitted_good hgrounded hapart
  have hkeeps := hadmits.keeps
  refine ⟨hadmits.orderly hends.orderly hserving, hends.snapshot, ?_,
    fun hmem => hends.worked ((List.mem_cons.mp hmem).resolve_left nofun), ?_, ?_⟩
  · intro login subject mailboxID session hmem
    rcases List.mem_cons.mp hmem with hsame | hmem
    · cases hsame
      exact hadmits.binds
    · obtain ⟨old, hold, hid, ref, href, hlink, hbound⟩ := hends.admitted hmem
      obtain ⟨row, hrow, hrowID, hrowLink, -⟩ := hkeeps old hold
      exact ⟨row, hrow, hrowID.trans hid, ref, hadmits.subset ref href,
        hlink.trans hrowLink.symm, hbound⟩
  · intro transaction base after mailboxID hmem hdisabled row hrow hbinds
    rcases List.mem_cons.mp hmem with hsame | hmem
    · cases hsame
    · exact hkeeps.revoked (hends.seen hmem hdisabled row hrow hbinds)
  · intro transaction base after login subject mailboxID session horder hmem hdisabled
    rcases List.cons_sublist_cons'.mp horder with horder | ⟨hsame, -⟩
    · rcases List.mem_cons.mp hmem with hsame | hmem
      · -- The login has overlapped with the transaction.
        cases hsame
        have hbegan := htracks.began (horder.subset List.mem_cons_self)
        exact absurd ⟨_, _, _, _, _, _, _, horder.cons _, pair_sublist hbegan,
          fun hserving => hserving.not_disabled hdisabled⟩ hapart
      · exact hkeeps.revoked (hends.begun horder hmem hdisabled)
    · cases hsame

theorem Ends.commit (hends : Ends site jobs world) (htracks : Tracks world)
    {base view db : Directory} {batch : ScimBatch} (hholder : world.holder = some (thread, base))
    (hjob : jobs thread = .provision batch) (htransact : site.transact batch base = some view)
    (hmerge : Directory.merge base view world.db = some db)
    (hapart : ¬ Overlaps serves (.committed thread base db :: world.journal)) :
    Ends site jobs (world.install thread base db) := by
  have hadvances := htracks.advances hholder
  obtain ⟨hview, hrefs, hkeepsView⟩ := ScimSite.transact_orderly (hends.snapshot hholder) htransact
  have horderly : db.Orderly := hadvances.commit_orderly hview hrefs hmerge
    fun _ _ _ _ hsince => hsince.committed_good hapart
  obtain ⟨refs, sessions, rfl, hmergedRefs, hmergedSessions⟩ :=
    Directory.merge_alike hadvances.alike hmerge
  rw [hrefs] at hmergedRefs
  have hkeeps : world.db.Keeps { view with refs := refs, sessions := sessions } :=
    keeps_merged hkeepsView hmergedSessions
  have hadmitted : ∀ {login subject mailboxID session},
      .admitted login subject mailboxID session ∈ world.journal →
      ∃ row ∈ sessions.rows, row.id = session.id ∧
        Directory.Binds { view with refs := refs, sessions := sessions } row
          mailboxID := by
    intro login subject mailboxID session hmem
    obtain ⟨old, hold, hid, ref, href, hlink, hbound⟩ := hends.admitted hmem
    obtain ⟨row, hrow, hrowID, hrowLink, -⟩ := hkeeps old hold
    exact ⟨row, hrow, hrowID.trans hid, ref,
      (Table.mem_merge_self hmergedRefs).mpr href, hlink.trans hrowLink.symm, hbound⟩
  refine ⟨horderly, fun hheld => absurd hheld nofun, ?_, ?_, ?_, ?_⟩
  · intro login subject mailboxID session hmem
    exact hadmitted ((List.mem_cons.mp hmem).resolve_left nofun)
  · intro transaction snapshot after hmem
    rcases List.mem_cons.mp hmem with hsame | hmem
    · cases hsame
      exact ⟨batch, view, hjob, htransact, rfl⟩
    · exact hends.worked hmem
  · intro transaction base after mailboxID hmem hdisabled row hrow hbinds
    rcases List.mem_cons.mp hmem with hsame | hmem
    · cases hsame
      exact ⟨row, hrow, rfl, horderly.settled row hrow mailboxID hbinds hdisabled⟩
    · exact hkeeps.revoked (hends.seen hmem hdisabled row hrow hbinds)
  · intro transaction base after login subject mailboxID session horder hmem hdisabled
    have hmem := (List.mem_cons.mp hmem).resolve_left nofun
    rcases List.cons_sublist_cons'.mp horder with horder | ⟨hsame, -⟩
    · exact hkeeps.revoked (hends.begun horder hmem hdisabled)
    · cases hsame
      obtain ⟨row, hrow, hid, hbinds⟩ := hadmitted hmem
      exact ⟨row, hrow, hid, horderly.settled row hrow mailboxID hbinds hdisabled⟩

theorem Ends.acts {state next : Moment accountInterface AccountWorld}
    (hends : Ends site jobs state.world) (htracks : Tracks state.world) {call : AccountCall}
    {answer : call.Answer} (hallowed : accountAllowed site serves jobs thread state call)
    (hacts : (accountMachine site.locale).Acts thread state call answer next)
    (hapart : ¬ Overlaps serves next.world.journal) : Ends site jobs next.world := by
  have hchanges := does_changes hacts.1
  generalize next.world = after at hchanges hapart
  cases hchanges with
  | idle => exact hends
  | released => exact hends.release thread
  | entered => exact hends.note rfl rfl (.inl ⟨_, rfl⟩) hends.snapshot
  | admitted haccept =>
    exact hends.admitLogin htracks hallowed (Directory.admitSession_ok haccept) hapart
  | began =>
    refine hends.note rfl rfl (.inr ⟨_, rfl⟩) ?_
    intro transaction base hholder
    cases hholder
    exact hends.orderly
  | committed hholder hmerge =>
    obtain ⟨batch, hjob, htransact⟩ := hallowed
    exact hends.commit htracks hholder hjob htransact hmerge hapart

theorem ends_fresh {start : Directory} (hstart : start.Orderly) :
    Ends site jobs (.fresh start) :=
  ⟨hstart, fun hholder => absurd hholder nofun, fun hmem => absurd hmem List.not_mem_nil,
    fun hmem => absurd hmem List.not_mem_nil, fun hmem => absurd hmem List.not_mem_nil,
    fun _ hmem => absurd hmem List.not_mem_nil⟩

/-- A user is taken out of service by a transaction that commits.  Its mailbox is disabled
then, and the sessions that it had and those of all logins that had begun are never
returned again, provided that no login overlaps with a transaction that takes its mailbox
out of service. -/
theorem deactivation_ends_logins (site : ScimSite) (jobs : Thread → AccountJob)
    {start : Directory} (hstart : start.Orderly) {pool : Pool accountInterface AccountWorld}
    (hreachable : (accountMachine site.locale).Reachable (.fresh start)
      (fun thread => (jobs thread).program site) pool)
    (hapart : ¬ Overlaps serves pool.state.world.journal)
    {transaction : Thread} {base after : Directory} {batch : ScimBatch} {resourceID : Text}
    (hcommitted : .committed transaction base after ∈ pool.state.world.journal)
    (hjob : jobs transaction = .provision batch)
    (hdeactivates : site.Deactivates batch resourceID base)
    {mailbox : DirectoryMailbox} (hmailbox : mailbox ∈ after.mailboxes.rows)
    (howner : mailbox.scimResourceID = some resourceID) (now : Time) :
    mailbox.enabled = false ∧
    (∀ row ∈ after.sessions.rows, after.Binds row mailbox.id →
      pool.state.world.db.boundSession site.locale row.id now = none) ∧
    ∀ login subject session,
      [.committed transaction base after, .entered login] <+ pool.state.world.journal →
      .admitted login subject mailbox.id session ∈ pool.state.world.journal →
        pool.state.world.db.boundSession site.locale session.id now = none := by
  have hends : Ends site jobs pool.state.world :=
    accounts_invariant (serves_finding site.locale)
      (fun hends htracks hallowed hacts => hends.acts htracks hallowed hacts)
      (fun thread hends => hends.release thread) (ends_fresh hstart) hreachable hapart
  obtain ⟨performed, view, hperformed, htransact, hmailboxes⟩ := hends.worked hcommitted
  rw [hjob] at hperformed
  cases hperformed
  have hdisabled : mailbox.enabled = false :=
    hdeactivates.suspends htransact mailbox (hmailboxes ▸ hmailbox) howner
  have hended : after.Disabled mailbox.id := ⟨mailbox, hmailbox, rfl, hdisabled⟩
  refine ⟨hdisabled, ?_, ?_⟩
  · intro row hrow hbinds
    exact (hends.seen hcommitted hended row hrow hbinds).boundSession _ now
  · intro login subject session horder hadmitted
    exact (hends.begun horder hadmitted hended).boundSession _ now

end Runs

theorem Directory.empty_orderly : Directory.empty.Orderly where
  linked := fun _ hrow => absurd hrow List.not_mem_nil
  owned := fun _ href => absurd href List.not_mem_nil
  settled := fun _ hrow => absurd hrow List.not_mem_nil

/-- A user is created, logs in, is deactivated and activated again, or is deleted. -/
def annJobs : Thread → AccountJob
  | 0 => .provision ⟨plainClient, none, [.create (plainUser "u1" "ann" "+a@x.test" "1")]⟩
  | 1 => .login ⟨ascii "ann", ascii "idp", ascii "a@x.test"⟩
      ⟨ascii "session", [], [], ascii "oidc", 1, 100, 1⟩
  | 2 => .provision ⟨plainClient, none,
      [.replace (plainUser "u1" "ann" "-a@x.test" "2") (ascii "1")]⟩
  | 3 => .provision ⟨plainClient, none,
      [.replace (plainUser "u1" "ann" "+a@x.test" "3") (ascii "2")]⟩
  | _ => .provision ⟨plainClient, none, [plainDelete "u1" "ann" "1"]⟩

def annSession : Session := ⟨ascii "session", ascii "ref", [], ascii "oidc", 1, 100, 1⟩

def annMailbox : Text := stableUUID (ascii "scim-mailbox:u1")

/-- The user is deactivated or deleted when the login is over. -/
def orderlyRun (transaction : Thread) : AccountRun :=
  Directory.empty.scheduled plainScim annJobs [(0, 2), (1, 4), (transaction, 2)]

def annCreated : Directory := (Directory.empty.scheduled plainScim annJobs [(0, 2)]).2.world.db

def annAdmitted : Directory :=
  (Directory.empty.scheduled plainScim annJobs [(0, 2), (1, 4)]).2.world.db

set_option maxRecDepth 100000 in
theorem orderlyRun_journal : ∀ transaction ∈ [2, 4],
    (orderlyRun transaction).pool.state.world.journal =
      [.committed transaction annAdmitted (orderlyRun transaction).pool.state.world.db,
        .began transaction, .admitted 1 (ascii "ann") annMailbox annSession, .entered 1,
        .committed 0 .empty annCreated, .began 0] ∧
    ∃ mailbox ∈ (orderlyRun transaction).pool.state.world.db.mailboxes.rows,
      mailbox.id = annMailbox ∧ mailbox.scimResourceID = some (ascii "u1") := by
  decide +kernel

set_option maxRecDepth 100000 in
theorem ann_performed :
    (plainScim.describe (plainUser "u1" "ann" "-a@x.test" "2").toResourceRow).map
        IdentityMailbox.active = .ok false ∧
      (plainScim.perform plainClient (.replace (plainUser "u1" "ann" "-a@x.test" "2") (ascii "1"))
        (ScimSite.begin none annAdmitted)).1 = .ok () ∧
      (plainScim.perform plainClient (plainDelete "u1" "ann" "1")
        (ScimSite.begin none annAdmitted)).1 = .ok () := by
  decide +kernel

theorem ann_deactivates : ∀ transaction ∈ [2, 4], ∃ batch,
    annJobs transaction = .provision batch ∧
      plainScim.Deactivates batch (ascii "u1") annAdmitted := by
  obtain ⟨hinactive, hreplaced, hdeleted⟩ := ann_performed
  simp only [List.forall_mem_cons, List.not_mem_nil, false_imp_iff, implies_true, and_true]
  exact ⟨⟨_, rfl, rfl, [], _, [], rfl, .replaced _ rfl rfl hinactive, nofun, hreplaced⟩,
    ⟨_, rfl, rfl, [], _, [], rfl, .deleted _ _ _, nofun, hdeleted⟩⟩

/-- A login that was over before the transaction began. -/
theorem not_overlaps_of_order (good : Directory → Text → Text → Prop) {transaction : Thread}
    (hlater : transaction ≠ 0) (start first base last : Directory) (subject mailboxID : Text)
    (session : Session) :
    ¬ Overlaps good [.committed transaction base last, .began transaction,
      .admitted 1 subject mailboxID session, .entered 1, .committed 0 start first, .began 0] := by
  rintro ⟨login, other, _, after, _, _, _, hcommitted, hadmitted, -⟩
  simp only [List.cons_sublist_cons', List.sublist_singleton, reduceCtorEq,
    List.cons.injEq, List.cons_ne_self, and_self, or_self,
    AccountEntry.committed.injEq, and_true, and_false, List.Sublist.refl,
    List.Sublist.cons, AccountEntry.entered.injEq, false_or, false_and,
    List.ne_cons_self, or_false, List.nil_sublist, AccountEntry.began.injEq,
    AccountEntry.admitted.injEq] at hcommitted hadmitted
  exact hlater (hcommitted.1.1.symm.trans hadmitted.2)

theorem deactivation_ends_logins_ann : [2, 4].Forall fun transaction =>
    (orderlyRun transaction).pool.state.world.db.boundSession byteLocale annSession.id 5 =
      none := by
  refine List.forall_iff_forall_mem.mpr fun transaction hmem => ?_
  have hreachable := Directory.empty.scheduled_reachable plainScim annJobs
    [(0, 2), (1, 4), (transaction, 2)]
  rw [show Directory.empty.scheduled plainScim annJobs [(0, 2), (1, 4), (transaction, 2)] =
    orderlyRun transaction from rfl] at hreachable
  obtain ⟨hjournal, mailbox, hmailbox, hid, howner⟩ := orderlyRun_journal transaction hmem
  obtain ⟨batch, hjob, hdeactivates⟩ := ann_deactivates transaction hmem
  have hlater : transaction ≠ 0 := by
    rintro rfl
    exact absurd hmem (by decide)
  generalize (orderlyRun transaction).pool = pool at hreachable hjournal hmailbox ⊢
  have hapart : ¬ Overlaps serves pool.state.world.journal := by
    rw [hjournal]
    exact not_overlaps_of_order _ hlater _ _ _ _ _ _ _
  have hcommitted : .committed transaction annAdmitted pool.state.world.db ∈
      pool.state.world.journal := by
    rw [hjournal]
    exact List.mem_cons_self
  have horder : [.committed transaction annAdmitted pool.state.world.db, .entered 1] <+
      pool.state.world.journal := by
    rw [hjournal]
    exact pair_sublist (by simp)
  have hadmitted : .admitted 1 (ascii "ann") mailbox.id annSession ∈
      pool.state.world.journal := by
    rw [hjournal, hid]
    simp
  exact (deactivation_ends_logins plainScim annJobs Directory.empty_orderly hreachable hapart
    hcommitted hjob hdeactivates hmailbox howner 5).2.2 1 (ascii "ann") annSession horder hadmitted

/-- The database after the deactivation while the login is under way. -/
def deactivatedMeanwhile : Directory :=
  (Directory.empty.scheduled plainScim annJobs [(0, 2), (1, 2), (2, 2)]).2.world.db

/-- The login is admitted after the deactivation, and the user comes back. -/
def escapingRun : AccountRun :=
  Directory.empty.scheduled plainScim annJobs [(0, 2), (1, 2), (2, 2), (1, 2), (3, 2)]

set_option maxRecDepth 100000 in
theorem escapingRun_shows :
    [.committed 2 annCreated deactivatedMeanwhile, .entered 1] <+
        escapingRun.pool.state.world.journal ∧
      (plainScim.perform plainClient (.replace (plainUser "u1" "ann" "-a@x.test" "2") (ascii "1"))
        (ScimSite.begin none annCreated)).1 = .ok () ∧
      .admitted 1 (ascii "ann") annMailbox annSession ∈ escapingRun.pool.state.world.journal ∧
      (∃ mailbox ∈ deactivatedMeanwhile.mailboxes.rows, mailbox.id = annMailbox ∧
        mailbox.scimResourceID = some (ascii "u1")) ∧
      (escapingRun.pool.state.world.db.boundSession byteLocale annSession.id 5).isSome = true := by
  decide +kernel

/-- A session whose login had begun before the deactivation was committed is
returned once the user is active again. -/
theorem escapingRun_returned :
    Directory.empty.Orderly ∧ (accountMachine byteLocale).Reachable (.fresh .empty)
        (fun thread => (annJobs thread).program plainScim) escapingRun.pool ∧
      ∃ base after batch resourceID, ∃ mailbox ∈ after.mailboxes.rows, ∃ session,
        annJobs 2 = .provision batch ∧ plainScim.Deactivates batch resourceID base ∧
        [.committed 2 base after, .entered 1] <+ escapingRun.pool.state.world.journal ∧
        mailbox.scimResourceID = some resourceID ∧
        .admitted 1 (ascii "ann") mailbox.id session ∈ escapingRun.pool.state.world.journal ∧
        (escapingRun.pool.state.world.db.boundSession byteLocale session.id 5).isSome = true := by
  obtain ⟨horder, hreplaced, hadmitted, ⟨mailbox, hmailbox, hid, howner⟩, hsome⟩ :=
    escapingRun_shows
  rw [← hid] at hadmitted
  refine ⟨Directory.empty_orderly, Directory.empty.scheduled_reachable plainScim annJobs _,
    annCreated, deactivatedMeanwhile, _, ascii "u1", mailbox, hmailbox, annSession, rfl,
    ⟨rfl, [], _, [], rfl, .replaced _ rfl rfl ann_performed.1, nofun, hreplaced⟩,
    horder, howner, hadmitted, hsome⟩

end GotthMail
