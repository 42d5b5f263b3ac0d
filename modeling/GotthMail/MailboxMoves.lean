/-
What the moves of a SCIM transaction do to mailboxes and sessions.  A mailbox is
written under its resource, adopted when it had none, or disabled; the sessions
of a resource are revoked in the same move that disables its mailbox, and
references to mailboxes are never touched.
-/
import GotthMail.ScimTombstones

namespace GotthMail

open Bytes Relational

namespace Directory

/-- The sessions of a resource are revoked. -/
def Revokes (resourceID : Text) (db next : Directory) : Prop :=
  ∃ now : Time, next.sessions.rows = db.sessions.rows.map fun row =>
    if next.revocable resourceID row then { row with revokedAt := some now }
    else row

/-- What a move does to mailboxes and sessions. -/
inductive Reseats (db next : Directory) : Prop
  | untouched (hmailboxes : next.mailboxes = db.mailboxes) (hsessions : next.sessions = db.sessions)
  | adopted {id resourceID : Text} {mailbox : DirectoryMailbox}
      (howner : mailbox.scimResourceID = some resourceID)
      (hmailboxes : next.mailboxes.rows = db.mailboxes.rows.map fun row =>
        if adoptable id row then adopt mailbox row else row)
      (hsessions : next.sessions = db.sessions)
  | written {mailbox : DirectoryMailbox} {resourceID : Text}
      (howner : mailbox.scimResourceID = some resourceID)
      (hmailboxes : next.mailboxes.toTable = db.upserted mailbox)
      (hsessions : mailbox.enabled = true ∧ next.sessions = db.sessions ∨
        Revokes resourceID db next)
  | disabled {resourceID : Text} {now : Time}
      (hmailboxes : next.mailboxes.rows = db.mailboxes.rows.map fun row =>
        if row.scimResourceID == some resourceID then
          { row with enabled := false, updatedAt := now }
        else row)
      (hsessions : Revokes resourceID db next)

/-- The other tables do not matter. -/
theorem Reseats.congr {db next other : Directory} (hreseats : db.Reseats next)
    (hmailboxes : other.mailboxes = next.mailboxes) (hsessions : other.sessions = next.sessions)
    (hrefs : other.refs = next.refs) : db.Reseats other := by
  have hrevokes : ∀ {resourceID}, Revokes resourceID db next →
      Revokes resourceID db other := by
    rintro resourceID ⟨now, hrows⟩
    refine ⟨now, ?_⟩
    rw [hsessions, hrows]
    unfold revocable boundTo
    rw [hmailboxes, hrefs]
  cases hreseats with
  | untouched hrows hkept =>
    exact .untouched (hmailboxes.trans hrows) (hsessions.trans hkept)
  | adopted howner hrows hkept =>
    exact .adopted howner (by rw [hmailboxes, hrows]) (hsessions.trans hkept)
  | written howner htable hkept =>
    exact .written howner (by rw [hmailboxes, htable])
      (hkept.imp (And.imp_right hsessions.trans) hrevokes)
  | disabled hrows hkept => exact .disabled (by rw [hmailboxes, hrows]) (hrevokes hkept)

/-- A row of an upsert is the new one or an old one under another identifier. -/
theorem mem_upserted {db : Directory} {mailbox row : DirectoryMailbox} :
    row ∈ (db.upserted mailbox).rows ↔
      row = mailbox ∨ row ∈ db.mailboxes.rows ∧ row.id ≠ mailbox.id := by
  unfold upserted
  split
  · next inserted hinsert =>
      obtain ⟨hfresh, hrows⟩ := Table.insert_eq_some_iff.mp hinsert
      rw [hrows, List.mem_append, List.mem_singleton, or_comm]
      refine or_congr_right ⟨fun hrow => ⟨hrow, ?_⟩, And.left⟩
      rintro hsame
      rw [Table.find?_eq_none_iff] at hfresh
      exact hfresh (hsame ▸ List.mem_map_of_mem hrow)
  · next htaken =>
      have hheld : ∃ old ∈ db.mailboxes.rows, old.id = mailbox.id := by
        by_contra hnone
        push Not at hnone
        refine absurd htaken ?_
        rw [Table.insert, dif_pos ?_]
        · exact Option.some_ne_none _
        · rintro hmem
          obtain ⟨old, hold, hsame⟩ := List.mem_map.mp hmem
          exact hnone old hold hsame
      change row ∈ db.mailboxes.rows.map _ ↔ _
      rw [List.mem_map]
      constructor
      · rintro ⟨old, hold, rfl⟩
        by_cases hsame : old.id = mailbox.id
        · simp [hsame]
        · simp [hsame, hold]
      · rintro (rfl | ⟨hrow, hother⟩)
        · obtain ⟨old, hold, hsame⟩ := hheld
          exact ⟨old, hold, by simp [hsame]⟩
        · exact ⟨row, hrow, by simp [hother]⟩

end Directory

namespace ScimSite

variable {site : ScimSite} {request : ScimRequest} {tx after : ScimTransaction} {call : ScimCall}

theorem Owns.reseats {record : ResourceRow} {mailbox : IdentityMailbox}
    {previous localPart domain : Text} {db next : Directory}
    (howns : site.Owns record previous mailbox localPart domain db next) :
    db.Reseats next ∧ next.refs = db.refs := by
  obtain ⟨id, domainID, resolved, upserted, revoked, -, hdomain, hupsert, hrevoke, hmove⟩ := howns
  obtain ⟨domains, rfl, -⟩ := Directory.resolveDomain_ok hdomain
  obtain ⟨mailboxes, rfl, hmailboxes⟩ := Directory.upsertMailbox_ok hupsert
  have hnext : ∃ tokens, next = { revoked with tokens := tokens } := by
    split at hmove
    · cases hmove
      exact ⟨_, rfl⟩
    · obtain ⟨tokens, rfl, -⟩ := Directory.moveTokens_ok hmove
      exact ⟨tokens, rfl⟩
  obtain ⟨tokens, rfl⟩ := hnext
  split at hrevoke
  · next hactive =>
      cases hrevoke
      exact ⟨.written rfl hmailboxes (.inl ⟨hactive, rfl⟩), rfl⟩
  · cases hrevoke
    exact ⟨.written rfl hmailboxes (.inr ⟨mailbox.updatedAt, rfl⟩), rfl⟩

theorem Projects.reseats {record : ResourceRow}
    (hprojects : site.Projects request record tx after) :
    tx.view.Reseats after.view ∧ after.view.refs = tx.view.refs := by
  obtain ⟨_, mailbox, _, middle, next, _, hdrafts, _, _, _, hpersists, rfl⟩ := hprojects
  rw [← hdrafts.unchanged.2.1]
  cases hpersists with
  | adopted hclaim hconsumed hfold hadopts =>
    obtain ⟨-, mailboxes, rfl, htable⟩ := Directory.adoptMailbox_ok hadopts.written
    exact ⟨.adopted rfl (congrArg Table.rows htable) rfl, rfl⟩
  | owned hcut hclaim howns => exact howns.reseats

theorem Disables.reseats {record : ResourceRow} {now : Time}
    (hdisables : site.Disables request record now tx after) :
    tx.view.Reseats after.view ∧ after.view.refs = tx.view.refs := by
  cases hdisables with
  | other hidle hsame =>
    rw [hsame]
    exact ⟨.untouched rfl rfl, rfl⟩
  | user htype hidentity hdrafts hdisable hrevoke hafter =>
    rw [hdrafts.unchanged.2.1] at hdisable
    obtain ⟨mailboxes, rfl, hrows⟩ := Directory.disableMailbox_ok hdisable
    cases hrevoke
    rw [hafter]
    exact ⟨.disabled hrows ⟨now, rfl⟩, rfl⟩

theorem Moves.reseats (hmoves : site.Moves request tx after) :
    tx.view.Reseats after.view ∧ after.view.refs = tx.view.refs := by
  cases hmoves with
  | reindexed hmoves =>
    obtain ⟨_, _, rfl⟩ := hmoves
    exact ⟨.untouched rfl rfl, rfl⟩
  | regrouped hmoves =>
    obtain ⟨_, rfl⟩ := hmoves
    exact ⟨.untouched rfl rfl, rfl⟩
  | consumed hclaim => exact ⟨.untouched rfl rfl, rfl⟩
  | projected htype hlive hmoves => exact hmoves.reseats

theorem Opens.reseats (hopens : site.Opens request call tx after) :
    tx.view.Reseats after.view ∧ after.view.refs = tx.view.refs := by
  cases hopens with
  | inserted hmoves =>
    obtain ⟨_, _, _, rfl⟩ := hmoves
    exact ⟨.untouched rfl rfl, rfl⟩
  | revised expectedVersion hmoves =>
    rw [hmoves.changed]
    exact ⟨.untouched rfl rfl, rfl⟩
  | buried expectedVersion hmoves =>
    obtain ⟨_, middle, _, _, _, _, hdisables, hremove, hbury, rfl⟩ := hmoves
    obtain ⟨_, _, rfl⟩ := Directory.deleteResource_ok hremove
    obtain ⟨_, rfl, -⟩ := Directory.insertTombstone_ok hbury
    exact ⟨hdisables.reseats.1.congr rfl rfl rfl, hdisables.reseats.2⟩
  | noted scope resourceType id password salt passwords =>
    exact ⟨.untouched rfl rfl, rfl⟩

/-- What every move keeps, a transaction that commits keeps. -/
theorem transact_invariant {fact : ScimTransaction → Prop} {batch : ScimBatch}
    (hopens : ∀ {call tx after}, call ∈ batch.calls → fact tx →
      site.Opens batch.request call tx after → fact after)
    (hmoves : ∀ {tx after}, fact tx → site.Moves batch.request tx after →
      fact after) {db next : Directory}
    (htransact : site.transact batch db = some next) (hstart : fact (begin batch.claim db)) :
    ∃ tx : ScimTransaction, tx.view = next ∧ fact tx := by
  obtain ⟨hopen, rfl⟩ := transact_view htransact
  refine ⟨_, rfl, (performAll_invariant batch.calls hopens hmoves hstart).resolve_left ?_⟩
  rw [hopen]
  exact Bool.false_ne_true

end ScimSite

end GotthMail
