/-
Whose mailbox a session opens.  Every reference of single sign-on belongs to the
mailbox of a user whose external identifier is its subject; SCIM transactions
keep that for the references they see, and a login for what it has read.  Where
the two overlap each may miss what the other writes.
-/
import GotthMail.LoginRuns
import GotthMail.MailboxMoves

namespace GotthMail

open Bytes Relational Calls

open scoped List

/-- The identifier of the row that is made for a resource. -/
def seatID (resourceID : Text) : Text := stableUUID (ascii "scim-mailbox:" ++ resourceID)

namespace Directory

/-- The mailbox has a resource which, while it lives, is a user with a given
external identifier. -/
def Belongs (db : Directory) (subject mailboxID : Text) : Prop :=
  ∃ mailbox ∈ db.mailboxes.rows, mailbox.id = mailboxID ∧
    ∃ resourceID, mailbox.scimResourceID = some resourceID ∧
      ∀ resource ∈ db.resources.rows, resource.id = resourceID →
        resource.resourceType = userType ∧ resource.externalID = subject

/-- Mailboxes and the resources behind them: those are users and alive or
buried, enabled mailboxes have a live one, and a row that is named after a
resource is the mailbox of that resource.  The resources have identifiers out of
a given set. -/
structure Seated (ids : Set Text) (db : Directory) : Prop where
  retired : db.Retired
  enrolled : ∀ resource ∈ db.resources.rows, resource.id ∈ ids
  typed : ∀ mailbox ∈ db.mailboxes.rows, ∀ resource ∈ db.resources.rows,
    mailbox.scimResourceID = some resource.id → resource.resourceType = userType
  known : ∀ mailbox ∈ db.mailboxes.rows, ∀ resourceID, mailbox.scimResourceID = some resourceID →
      (∃ resource ∈ db.resources.rows, resource.id = resourceID) ∨
        ∃ stone ∈ db.tombstones.rows, stone.id = resourceID
  live : ∀ mailbox ∈ db.mailboxes.rows, mailbox.enabled = true →
    ∀ resourceID, mailbox.scimResourceID = some resourceID →
      ∃ resource ∈ db.resources.rows, resource.id = resourceID
  named : ∀ mailbox ∈ db.mailboxes.rows, ∀ resourceID ∈ ids, mailbox.id = seatID resourceID →
      mailbox.scimResourceID = some resourceID

/-- References to mailboxes are those of single sign-on, and each of them
belongs to its mailbox. -/
def Attributed (db : Directory) : Prop :=
  ∀ ref ∈ db.refs.rows, ∀ mailboxID, ref.mailboxID = some mailboxID →
    ref.provider = .authentik ∧ db.Belongs ref.subject mailboxID

variable {ids : Set Text} {db : Directory}

/-- A new resource has no mailbox yet. -/
theorem Seated.unseated (hseated : db.Seated ids) {record : ResourceRow}
    (hfresh : db.resources.find? record.id = none)
    (hfree : db.reserved record = false) {mailbox : DirectoryMailbox}
    (hmailbox : mailbox ∈ db.mailboxes.rows) : mailbox.scimResourceID ≠ some record.id := by
  intro howner
  rcases hseated.known mailbox hmailbox record.id howner with
    ⟨resource, hresource, hid⟩ | ⟨stone, hstone, hid⟩
  · rw [Table.find?_eq_none_iff] at hfresh
    exact hfresh (hid ▸ List.mem_map_of_mem hresource)
  · exact (reserved_eq_false_iff.mp hfree stone hstone).1 hid.symm

end Directory

namespace ScimSite

variable {site : ScimSite} {request : ScimRequest} {tx after : ScimTransaction} {call : ScimCall}
  {ids : Set Text}

structure Keeping (ids : Set Text) (view : Directory) : Prop where
  seated : view.Seated ids
  attributed : view.Attributed

variable {db next : Directory} {record : ResourceRow}

/-- The other tables do not matter. -/
theorem Keeping.congr (hkeeping : Keeping ids db) (hmailboxes : next.mailboxes = db.mailboxes)
    (hresources : next.resources = db.resources)
    (htombstones : next.tombstones = db.tombstones) (hrefs : next.refs = db.refs) :
    Keeping ids next := by
  obtain ⟨⟨hretired, henrolled, htyped, hknown, hlive, hnamed⟩, hattributed⟩ := hkeeping
  cases db
  cases next
  subst hmailboxes hresources htombstones hrefs
  exact ⟨⟨hretired, henrolled, htyped, hknown, hlive, hnamed⟩, hattributed⟩

theorem Inserts.keeping (hkeeping : Keeping ids tx.view)
    (hretired : after.view.Retired) (hin : record.id ∈ ids) (hinserts : Inserts record tx after) :
    Keeping ids after.view := by
  obtain ⟨hfree, resources, hinsert, rfl⟩ := hinserts
  obtain ⟨hfresh, hrows⟩ := Table.insert_eq_some_iff.mp hinsert
  have hunseated : ∀ mailbox ∈ tx.view.mailboxes.rows, mailbox.scimResourceID ≠ some record.id :=
    fun _ => hkeeping.seated.unseated hfresh hfree
  have hold : ∀ {resource resourceID}, resource ∈ resources.rows →
      resource.id = resourceID → resourceID ≠ record.id → resource ∈ tx.view.resources.rows := by
    intro resource resourceID hresource hid hother
    rw [hrows, List.mem_append, List.mem_singleton] at hresource
    refine hresource.resolve_right ?_
    rintro rfl
    exact hother hid.symm
  have hsubset : ∀ resource ∈ tx.view.resources.rows, resource ∈ resources.rows := by
    intro resource hresource
    simp [hrows, hresource]
  refine ⟨⟨hretired, ?_, ?_, ?_, ?_, hkeeping.seated.named⟩, ?_⟩
  · intro resource hresource
    by_cases hsame : resource.id = record.id
    · rwa [hsame]
    · exact hkeeping.seated.enrolled resource (hold hresource rfl hsame)
  · intro mailbox hmailbox resource hresource howner
    refine hkeeping.seated.typed mailbox hmailbox resource (hold hresource rfl ?_) howner
    intro hsame
    exact hunseated mailbox hmailbox (hsame ▸ howner)
  · intro mailbox hmailbox resourceID howner
    refine (hkeeping.seated.known mailbox hmailbox resourceID howner).imp_left ?_
    rintro ⟨resource, hresource, hid⟩
    exact ⟨resource, hsubset resource hresource, hid⟩
  · intro mailbox hmailbox henabled resourceID howner
    obtain ⟨resource, hresource, hid⟩ :=
      hkeeping.seated.live mailbox hmailbox henabled resourceID howner
    exact ⟨resource, hsubset resource hresource, hid⟩
  · intro ref href mailboxID hbound
    obtain ⟨hprovider, mailbox, hmailbox, hid, resourceID, howner, hsubject⟩ :=
      hkeeping.attributed ref href mailboxID hbound
    refine ⟨hprovider, mailbox, hmailbox, hid, resourceID, howner, ?_⟩
    intro resource hresource hsame
    refine hsubject resource (hold hresource hsame ?_) hsame
    rintro rfl
    exact hunseated mailbox hmailbox howner

theorem Revises.keeping (hkeeping : Keeping ids tx.view)
    (hretired : after.view.Retired) (hrevises : Revises record tx after) :
    Keeping ids after.view := by
  obtain ⟨⟨current, hfound, -, -, hguard⟩, rfl⟩ := hrevises
  obtain ⟨hcurrent, -, -, hcurrentID⟩ := Directory.resource?_eq_some hfound
  have hold : ∀ {resource}, resource ∈ (tx.view.revised record).rows →
      ∃ old ∈ tx.view.resources.rows, old.id = resource.id ∧
        old.resourceType = resource.resourceType ∧ (resource = old ∨ old = current ∧
          resource.externalID = record.externalID) := by
    intro resource hresource
    rcases Directory.mem_revised hresource with
      hsame | ⟨old, hmem, rfl, -, -, hid⟩
    · exact ⟨resource, hsame, rfl, rfl, .inl rfl⟩
    · have hsame := tx.view.resources.eq_of_key_eq hmem hcurrent (hid.trans hcurrentID.symm)
      exact ⟨old, hmem, rfl, rfl, .inr ⟨hsame, rfl⟩⟩
  have hnew : ∀ {old}, old ∈ tx.view.resources.rows →
      ∃ resource ∈ (tx.view.revised record).rows, resource.id = old.id := by
    intro old hmem
    refine ⟨_, List.mem_map_of_mem hmem, ?_⟩
    split <;> rfl
  refine ⟨⟨hretired, ?_, ?_, ?_, ?_, hkeeping.seated.named⟩, ?_⟩
  · intro resource hresource
    obtain ⟨old, hmem, hid, -⟩ := hold hresource
    exact hid ▸ hkeeping.seated.enrolled old hmem
  · intro mailbox hmailbox resource hresource howner
    obtain ⟨old, hmem, hid, htype, -⟩ := hold hresource
    rw [← htype]
    exact hkeeping.seated.typed mailbox hmailbox old hmem (hid ▸ howner)
  · intro mailbox hmailbox resourceID howner
    refine (hkeeping.seated.known mailbox hmailbox resourceID howner).imp_left ?_
    rintro ⟨old, hmem, rfl⟩
    exact hnew hmem
  · intro mailbox hmailbox henabled resourceID howner
    obtain ⟨old, hmem, rfl⟩ := hkeeping.seated.live mailbox hmailbox henabled resourceID howner
    exact hnew hmem
  · intro ref href mailboxID hbound
    obtain ⟨hprovider, mailbox, hmailbox, hid, resourceID, howner, hsubject⟩ :=
      hkeeping.attributed ref href mailboxID hbound
    refine ⟨hprovider, mailbox, hmailbox, hid, resourceID, howner, ?_⟩
    intro resource hresource hsame
    obtain ⟨old, hmem, holdID, htype, hchange⟩ := hold hresource
    have hbefore := hsubject old hmem (holdID.trans hsame)
    refine ⟨htype ▸ hbefore.1, ?_⟩
    rcases hchange with rfl | ⟨rfl, hexternal⟩
    · exact hbefore.2
    · rcases hguard with hkept | hunbound
      · rw [hexternal, ← hkept, hbefore.2]
      · -- The reference is one that the guard has seen.
        have hseen : tx.view.boundTo record.id ref = true := by
          simp only [Directory.boundTo, Bool.and_eq_true, beq_iff_eq, List.any_eq_true]
          refine ⟨hprovider, mailbox, hmailbox, hid ▸ hbound, ?_⟩
          rw [howner, ← hsame, ← holdID, hcurrentID]
        simp only [List.any_eq_false] at hunbound
        exact absurd hseen (hunbound ref href)

/-- Mailboxes are rewritten: the rows are those there were, enabled only where
they had been, and mailboxes of one resource. -/
structure Rewrites (ids : Set Text) (resourceID : Text) (db next : Directory) :
    Prop where
  resources : next.resources = db.resources
  tombstones : next.tombstones = db.tombstones
  refs : next.refs = db.refs
  comes : ∀ row ∈ next.mailboxes.rows, (∃ old ∈ db.mailboxes.rows, old.id = row.id ∧
      old.scimResourceID = row.scimResourceID ∧ (row.enabled = true → old.enabled = true)) ∨
    row.scimResourceID = some resourceID ∧
      ∀ named ∈ ids, row.id = seatID named → named = resourceID
  stays : ∀ old ∈ db.mailboxes.rows, ∀ owner, old.scimResourceID = some owner →
    ∃ row ∈ next.mailboxes.rows, row.id = old.id ∧ row.scimResourceID = some owner

theorem Rewrites.keeping (hkeeping : Keeping ids db) (hrewrites : Rewrites ids record.id db next)
    (htype : record.resourceType = userType) (hlive : record ∈ db.resources.rows) :
    Keeping ids next := by
  obtain ⟨hresources, htombstones, hrefs, hcomes, hstays⟩ := hrewrites
  refine ⟨⟨?_, ?_, ?_, ?_, ?_, ?_⟩, ?_⟩
  · unfold Directory.Retired
    rw [hresources, htombstones]
    exact hkeeping.seated.retired
  · rw [hresources]
    exact hkeeping.seated.enrolled
  · intro mailbox hmailbox resource hresource howner
    rw [hresources] at hresource
    rcases hcomes mailbox hmailbox with ⟨old, hold, -, hsame, -⟩ | ⟨hrecord, -⟩
    · exact hkeeping.seated.typed old hold resource hresource (hsame.trans howner)
    · have hid := Option.some.inj (hrecord.symm.trans howner)
      rwa [← db.resources.eq_of_key_eq hlive hresource hid]
  · intro mailbox hmailbox resourceID howner
    rw [hresources, htombstones]
    rcases hcomes mailbox hmailbox with ⟨old, hold, -, hsame, -⟩ | ⟨hrecord, -⟩
    · exact hkeeping.seated.known old hold resourceID (hsame.trans howner)
    · exact .inl ⟨record, hlive, Option.some.inj (hrecord.symm.trans howner)⟩
  · intro mailbox hmailbox henabled resourceID howner
    rw [hresources]
    rcases hcomes mailbox hmailbox with ⟨old, hold, -, hsame, hearlier⟩ | ⟨hrecord, -⟩
    · exact hkeeping.seated.live old hold (hearlier henabled) resourceID (hsame.trans howner)
    · exact ⟨record, hlive, Option.some.inj (hrecord.symm.trans howner)⟩
  · intro mailbox hmailbox resourceID hin hnamed
    rcases hcomes mailbox hmailbox with ⟨old, hold, hid, hsame, -⟩ | ⟨hrecord, hseat⟩
    · rw [← hsame]
      exact hkeeping.seated.named old hold resourceID hin (hid.trans hnamed)
    · rw [hseat resourceID hin hnamed]
      exact hrecord
  · intro ref href mailboxID hbound
    obtain ⟨hprovider, mailbox, hmailbox, rfl, resourceID, howner, hsubject⟩ :=
      hkeeping.attributed ref (hrefs ▸ href) mailboxID hbound
    obtain ⟨row, hrow, hid, hrowOwner⟩ := hstays mailbox hmailbox resourceID howner
    exact ⟨hprovider, row, hrow, hid, resourceID, hrowOwner, hresources ▸ hsubject⟩

theorem Owns.rewrites {mailbox : IdentityMailbox} {previous localPart domain : Text}
    (hseated : db.Seated ids) (hseats : Set.InjOn seatID ids) (hlive : record ∈ db.resources.rows)
    (howns : site.Owns record previous mailbox localPart domain db next) :
    Rewrites ids record.id db next := by
  have hframe := howns.frame
  obtain ⟨id, domainID, resolved, upserted, revoked, hid, hdomain, hupsert, hrevoke, hmove⟩ := howns
  obtain ⟨domains, rfl, -⟩ := Directory.resolveDomain_ok hdomain
  obtain ⟨mailboxes, rfl, hmailboxes⟩ := Directory.upsertMailbox_ok hupsert
  have hnext : next.mailboxes = mailboxes := by
    have hrevoked : revoked.mailboxes = mailboxes := by
      split at hrevoke <;> cases hrevoke <;> rfl
    split at hmove
    · cases hmove
      exact hrevoked
    · obtain ⟨tokens, rfl, -⟩ := Directory.moveTokens_ok hmove
      exact hrevoked
  have hrecord := hseated.enrolled record hlive
  -- Whatever has the identifier is the mailbox of the resource.
  have hheld : ∀ old ∈ db.mailboxes.rows, old.id = id → old.scimResourceID = some record.id := by
    intro old hold hsame
    rcases hid with ⟨-, rfl⟩ | ⟨-, row, hfind, rfl⟩
    · exact hseated.named old hold record.id hrecord hsame
    · rw [db.mailboxes.eq_of_key_eq hold (List.mem_of_find?_eq_some hfind) hsame]
      have hmatch := List.find?_some hfind
      exact beq_iff_eq.mp hmatch
  have hseat : ∀ named ∈ ids, id = seatID named → named = record.id := by
    intro named hin hnamed
    rcases hid with ⟨-, rfl⟩ | ⟨-, row, hfind, rfl⟩
    · exact (hseats hrecord hin hnamed).symm
    · have hrow := List.mem_of_find?_eq_some hfind
      have hfound := hheld row hrow rfl
      rw [hseated.named row hrow named hin hnamed] at hfound
      exact Option.some.inj hfound
  have hmem : ∀ {row}, row ∈ next.mailboxes.rows ↔
      row = mailboxRow id domainID localPart mailbox record.id ∨
        row ∈ db.mailboxes.rows ∧ row.id ≠ id := by
    intro row
    rw [hnext, hmailboxes]
    exact Directory.mem_upserted
  obtain ⟨_, _, _, _, hframe⟩ := hframe
  refine ⟨by rw [hframe], by rw [hframe], by rw [hframe], ?_, ?_⟩
  · intro row hrow
    rcases hmem.mp hrow with rfl | ⟨hold, -⟩
    · exact .inr ⟨rfl, hseat⟩
    · exact .inl ⟨row, hold, rfl, rfl, fun henabled => henabled⟩
  · intro old hold owner howner
    by_cases hsame : old.id = id
    · refine ⟨_, hmem.mpr (.inl rfl), hsame.symm, ?_⟩
      rw [← howner, hheld old hold hsame]
      rfl
    · exact ⟨old, hmem.mpr (.inr ⟨hold, hsame⟩), rfl, howner⟩

theorem Projects.keeping (hkeeping : Keeping ids tx.view)
    (hseats : Set.InjOn seatID ids) (htype : record.resourceType = userType)
    (hlive : record ∈ tx.view.resources.rows) (hprojects : site.Projects request record tx after) :
    Keeping ids after.view := by
  obtain ⟨_, mailbox, _, middle, next, _, hdrafts, _, _, _, hpersists, rfl⟩ := hprojects
  rw [← hdrafts.unchanged.2.1] at hkeeping hlive
  refine Rewrites.keeping hkeeping ?_ htype hlive
  cases hpersists with
  | adopted hclaim hconsumed hfold hadopts =>
    obtain ⟨-, mailboxes, rfl, htable⟩ := Directory.adoptMailbox_ok hadopts.written
    refine ⟨rfl, rfl, rfl, ?_, ?_⟩
    · intro row hrow
      rw [htable] at hrow
      obtain ⟨old, hold, rfl⟩ := List.mem_map.mp hrow
      split
      · next hadoptable =>
          refine .inr ⟨rfl, ?_⟩
          intro named hin hnamed
          have howner := hkeeping.seated.named old hold named hin hnamed
          simp [Directory.adoptable, howner] at hadoptable
      · exact .inl ⟨old, hold, rfl, rfl, id⟩
    · intro old hold owner howner
      refine ⟨old, ?_, rfl, howner⟩
      rw [htable]
      refine List.mem_map.mpr ⟨old, hold, if_neg ?_⟩
      simp [Directory.adoptable, howner]
  | owned hcut hclaim howns => exact howns.rewrites hkeeping.seated hseats hlive

theorem Disables.keeping {now : Time} (hkeeping : Keeping ids tx.view)
    (hidentity : request.identity.isSome = true) (hlive : record ∈ tx.view.resources.rows)
    (hdisables : site.Disables request record now tx after) :
    Keeping ids after.view ∧ after.view.resources = tx.view.resources ∧
      after.view.tombstones = tx.view.tombstones ∧ ∀ mailbox ∈ after.view.mailboxes.rows,
        mailbox.scimResourceID = some record.id → mailbox.enabled = false := by
  cases hdisables with
  | other hidle hsame =>
    subst hsame
    refine ⟨hkeeping, rfl, rfl, ?_⟩
    intro mailbox hmailbox howner
    rcases hidle with hnone | hother
    · simp [hnone] at hidentity
    · exact absurd (hkeeping.seated.typed mailbox hmailbox record hlive howner) hother
  | user htype _ hdrafts hdisable hrevoke hafter =>
    rw [hdrafts.unchanged.2.1] at hdisable
    obtain ⟨mailboxes, rfl, hrows⟩ := Directory.disableMailbox_ok hdisable
    cases hrevoke
    subst hafter
    refine ⟨Rewrites.keeping hkeeping ⟨rfl, rfl, rfl, ?_, ?_⟩ htype hlive, rfl, rfl, ?_⟩
    · intro row hrow
      rw [hrows] at hrow
      obtain ⟨old, hold, rfl⟩ := List.mem_map.mp hrow
      refine .inl ⟨old, hold, ?_⟩
      split <;> simp
    · intro old hold owner howner
      refine ⟨_, hrows ▸ List.mem_map_of_mem hold, ?_⟩
      split <;> exact ⟨rfl, howner⟩
    · intro mailbox hmailbox howner
      rw [hrows] at hmailbox
      obtain ⟨old, hold, rfl⟩ := List.mem_map.mp hmailbox
      split at howner
      · next hmatch => rw [if_pos hmatch]
      · next hmatch => simp [howner] at hmatch

theorem Buries.keeping {stone : Tombstone} (hkeeping : Keeping ids tx.view)
    (hidentity : request.identity.isSome = true) (hretired : after.view.Retired)
    (hburies : site.Buries request stone tx after) : Keeping ids after.view := by
  obtain ⟨current, middle, removed, next, hfound, -, hdisables, hremove, hbury, rfl⟩ := hburies
  obtain ⟨hcurrent, hscope, htype, hid⟩ := Directory.resource?_eq_some hfound
  obtain ⟨hmiddle, hresources, htombstones, hdisabled⟩ :=
    hdisables.keeping hkeeping hidentity hcurrent
  obtain ⟨_, _, rfl⟩ := Directory.deleteResource_ok hremove
  obtain ⟨tombstones, rfl, hstones⟩ := Directory.insertTombstone_ok hbury
  have hkept : ∀ {resource}, resource ∈ middle.view.resources.rows →
      resource.id ≠ stone.id → resource ∈ (middle.view.resources.keep fun row =>
        !(row.scope == stone.scope && row.resourceType == stone.resourceType &&
          row.id == stone.id)).rows := by
    intro resource hresource hother
    exact List.mem_filter.mpr ⟨hresource, by simp [hother]⟩
  refine ⟨⟨hretired, ?_, ?_, ?_, ?_, hmiddle.seated.named⟩, ?_⟩
  · intro resource hresource
    exact hmiddle.seated.enrolled resource (List.mem_filter.mp hresource).1
  · intro mailbox hmailbox resource hresource
    exact hmiddle.seated.typed mailbox hmailbox resource (List.mem_filter.mp hresource).1
  · intro mailbox hmailbox resourceID howner
    by_cases hburied : resourceID = stone.id
    · refine .inr ⟨stone, ?_, hburied.symm⟩
      change stone ∈ tombstones.rows
      simp [hstones]
    · rcases hmiddle.seated.known mailbox hmailbox resourceID howner with
        ⟨resource, hresource, rfl⟩ | ⟨other, hother, hsame⟩
      · exact .inl ⟨resource, hkept hresource hburied, rfl⟩
      · refine .inr ⟨other, ?_, hsame⟩
        change other ∈ tombstones.rows
        simp [hstones, hother]
  · intro mailbox hmailbox henabled resourceID howner
    obtain ⟨resource, hresource, rfl⟩ :=
      hmiddle.seated.live mailbox hmailbox henabled resourceID howner
    refine ⟨resource, hkept hresource ?_, rfl⟩
    intro hburied
    rw [hdisabled mailbox hmailbox (by rw [howner, hburied, hid])] at henabled
    cases henabled
  · intro ref href mailboxID hbound
    obtain ⟨hprovider, mailbox, hmailbox, hmailboxID, resourceID, howner,
      hsubject⟩ := hmiddle.attributed ref href mailboxID hbound
    exact ⟨hprovider, mailbox, hmailbox, hmailboxID, resourceID, howner,
      fun resource hresource => hsubject resource (List.mem_filter.mp hresource).1⟩

theorem Moves.keeping (hseats : Set.InjOn seatID ids)
    (hkeeping : Keeping ids tx.view) (hmoves : site.Moves request tx after) :
    Keeping ids after.view := by
  cases hmoves with
  | reindexed hmoves =>
    obtain ⟨_, _, rfl⟩ := hmoves
    exact hkeeping.congr rfl rfl rfl rfl
  | regrouped hmoves =>
    obtain ⟨_, rfl⟩ := hmoves
    exact hkeeping.congr rfl rfl rfl rfl
  | consumed hclaim => exact hkeeping
  | projected htype hlive hmoves =>
    exact hmoves.keeping hkeeping hseats htype hlive

theorem Opens.keeping (hidentity : request.identity.isSome = true)
    (hids : ∀ record, call = .create record → record.id ∈ ids)
    (hkeeping : Keeping ids tx.view) (hopens : site.Opens request call tx after) :
    Keeping ids after.view := by
  have hretired := (hopens.retired hkeeping.seated.retired
    fun _ hstone => hstone : after.view.Retired ∧ tx.view.Remembers _).1
  cases hopens with
  | inserted hmoves => exact Inserts.keeping hkeeping hretired (hids _ rfl) hmoves
  | revised expectedVersion hmoves => exact Revises.keeping hkeeping hretired hmoves
  | buried expectedVersion hmoves =>
    exact hmoves.keeping hkeeping hidentity hretired
  | noted scope resourceType id password salt passwords => exact hkeeping

theorem transact_keeping {batch : ScimBatch} {base view : Directory}
    (hseats : Set.InjOn seatID ids) (hidentity : batch.request.identity.isSome = true)
    (hids : ∀ record, .create record ∈ batch.calls → record.id ∈ ids)
    (hkeeping : Keeping ids base) (htransact : site.transact batch base = some view) :
    Keeping ids view ∧ view.refs = base.refs := by
  have hreseats : ∀ {tx after : ScimTransaction},
      Keeping ids tx.view ∧ tx.view.refs = base.refs → Keeping ids after.view →
      after.view.refs = tx.view.refs → Keeping ids after.view ∧ after.view.refs = base.refs :=
    fun htx hafter hsame => ⟨hafter, hsame.trans htx.2⟩
  obtain ⟨tx, rfl, hview⟩ := transact_invariant
    (fun hcall htx hopens => hreseats htx (hopens.keeping hidentity
      (fun record hcreate => hids record (hcreate ▸ hcall)) htx.1) hopens.reseats.2)
    (fun htx hmoves => hreseats htx (hmoves.keeping hseats htx.1)
      hmoves.reseats.2) htransact ⟨hkeeping, rfl⟩
  exact hview

end ScimSite

/-- The finding of a login: the mailbox belongs to its subject. -/
theorem belongs_finding (locale : Locale) : Finding locale Directory.Belongs where
  found := by
    intro db subject candidate hcandidate
    obtain ⟨resource, hresource, mailbox, hmailbox, hid, -, howner, htype,
      hexternal⟩ := Directory.mem_loginCandidates hcandidate
    refine ⟨mailbox, hmailbox, hid, resource.id, howner, ?_⟩
    intro other hother hsame
    rw [db.resources.eq_of_key_eq hother hresource hsame]
    exact ⟨htype, hexternal⟩
  kept := fun _ _ hbelongs => hbelongs

/-- A batch before an identity service that creates resources under given identifiers. -/
structure ScimBatch.Enrols (ids : Set Text) (batch : ScimBatch) : Prop where
  identity : batch.request.identity.isSome = true
  created : ∀ record, .create record ∈ batch.calls → record.id ∈ ids

/-- The database is in order, and so is the snapshot that is worked on. -/
structure Attributes (ids : Set Text) (world : AccountWorld) : Prop where
  keeping : ScimSite.Keeping ids world.db
  snapshot : ∀ {transaction base}, world.holder = some (transaction, base) →
    ScimSite.Keeping ids base

section Runs

variable {site : ScimSite} {jobs : Thread → AccountJob} {world : AccountWorld} {thread : Thread}
  {ids : Set Text}

open ScimSite (Keeping)

theorem Attributes.release (hattributes : Attributes ids world)
    (thread : Thread) : Attributes ids (world.release thread) :=
  ⟨hattributes.keeping, fun hholder =>
    hattributes.snapshot (Option.filter_eq_some_iff.mp hholder).1⟩

theorem Directory.Admits.keeping {subject mailboxID : Text} {session : Session}
    {db next : Directory} (hadmits : Directory.Admits subject mailboxID session db next)
    (hkeeping : Keeping ids db) (hbelongs : db.Belongs subject mailboxID) :
    Keeping ids next := by
  obtain ⟨refs, ref, sessions, rfl, -, -, -, hprovider, rfl, hbound, hadded⟩ := hadmits
  obtain ⟨⟨hretired, henrolled, htyped, hknown, hlive, hnamed⟩, hattributed⟩ := hkeeping
  refine ⟨⟨hretired, henrolled, htyped, hknown, hlive, hnamed⟩, ?_⟩
  intro other hother otherID hotherBound
  have hcases : other ∈ db.refs.rows ∨ other = ref := by
    rcases hadded with rfl | hadded
    · exact .inl hother
    · simpa [hadded] using hother
  rcases hcases with hother | rfl
  · exact hattributed other hother otherID hotherBound
  · cases hbound.symm.trans hotherBound
    exact ⟨hprovider, hbelongs⟩

/-- A commit keeps references with their mailboxes, unless a login has
overlapped with it. -/
theorem Advances.commit_keeping {transaction : Thread} {base view db : Directory}
    (hadvances : Advances transaction base world) (hview : Keeping ids view)
    (hrefs : view.refs = base.refs) (hmerge : Directory.merge base view world.db = some db)
    (hsigned : ∀ ref ∈ world.db.refs.rows, ∀ mailboxID,
      ref.mailboxID = some mailboxID → ref.provider = .authentik)
    (hapart : ∀ login subject mailboxID session,
      Since transaction login subject mailboxID session world.journal →
        db.Belongs subject mailboxID) : Keeping ids db := by
  obtain ⟨refs, sessions, rfl, hmergedRefs, -⟩ := Directory.merge_alike hadvances.alike hmerge
  rw [hrefs] at hmergedRefs
  obtain ⟨⟨hretired, henrolled, htyped, hknown, hlive, hnamed⟩, hattributed⟩ := hview
  refine ⟨⟨hretired, henrolled, htyped, hknown, hlive, hnamed⟩, ?_⟩
  intro ref href mailboxID hbound
  have href := (Table.mem_merge_self hmergedRefs).mp href
  refine ⟨hsigned ref href mailboxID hbound, ?_⟩
  rcases hadvances.newRefs ref href with
    hbase | ⟨login, _, session, hsame, hsince⟩
  · exact (hattributed ref (hrefs ▸ hbase) mailboxID hbound).2
  · cases hsame.symm.trans hbound
    exact hapart _ _ _ _ hsince

theorem Attributes.acts {state next : Moment accountInterface AccountWorld}
    (hseats : Set.InjOn seatID ids)
    (hprovisions : ∀ thread batch, jobs thread = .provision batch → batch.Enrols ids)
    (hattributes : Attributes ids state.world) (htracks : Tracks state.world)
    {call : AccountCall} {answer : call.Answer}
    (hallowed : accountAllowed site Directory.Belongs jobs thread state call)
    (hacts : (accountMachine site.locale).Acts thread state call answer next)
    (hapart : ¬ Overlaps Directory.Belongs next.world.journal) : Attributes ids next.world := by
  have hchanges := does_changes hacts.1
  generalize next.world = after at hchanges hapart
  cases hchanges with
  | idle => exact hattributes
  | released => exact hattributes.release thread
  | entered => exact ⟨hattributes.keeping, hattributes.snapshot⟩
  | admitted haccept =>
    exact ⟨(Directory.admitSession_ok haccept).keeping hattributes.keeping
      (htracks.admitted_good hallowed hapart), hattributes.snapshot⟩
  | began =>
    refine ⟨hattributes.keeping, ?_⟩
    intro transaction base hholder
    cases hholder
    exact hattributes.keeping
  | committed hholder hmerge =>
    obtain ⟨batch, hjob, htransact⟩ := hallowed
    obtain ⟨hidentity, hids⟩ := hprovisions thread batch hjob
    obtain ⟨hview, hrefs⟩ := ScimSite.transact_keeping hseats hidentity hids
      (hattributes.snapshot hholder) htransact
    refine ⟨(htracks.advances hholder).commit_keeping hview hrefs hmerge ?_ ?_,
      fun hheld => absurd hheld nofun⟩
    · intro ref href mailboxID hbound
      exact (hattributes.keeping.attributed ref href mailboxID hbound).1
    · exact fun _ _ _ _ hsince => hsince.committed_good hapart

/-- A session that is returned opens the mailbox of a live user whose external
identifier is its subject, and no external identifier is changed away from a
subject with a reference, provided that no login overlaps with a transaction
that gives its mailbox to somebody else, and that the rows of the resources in play
have different identifiers. -/
theorem sessions_attributed (site : ScimSite) (jobs : Thread → AccountJob) (ids : Set Text)
    (hseats : Set.InjOn seatID ids)
    (hprovisions : ∀ thread batch, jobs thread = .provision batch → batch.Enrols ids)
    {start : Directory} (hstart : Keeping ids start) {pool : Pool accountInterface AccountWorld}
    (hreachable : (accountMachine site.locale).Reachable (.fresh start)
      (fun thread => (jobs thread).program site) pool)
    (hapart : ¬ Overlaps Directory.Belongs pool.state.world.journal) :
    (∀ id now session ref mailbox domain, pool.state.world.db.sessionRows id now =
          some (session, ref, mailbox, domain) →
        ∃ resource ∈ pool.state.world.db.resources.rows, mailbox.scimResourceID = some resource.id ∧
          resource.resourceType = userType ∧ resource.externalID = ref.subject) ∧
    ∀ ref ∈ pool.state.world.db.refs.rows, ∀ mailbox ∈ pool.state.world.db.mailboxes.rows,
      ref.mailboxID = some mailbox.id → ∀ resource ∈ pool.state.world.db.resources.rows,
          mailbox.scimResourceID = some resource.id → resource.externalID = ref.subject := by
  have hattributes : Attributes ids pool.state.world :=
    accounts_invariant (belongs_finding site.locale) (fun hattributes htracks hallowed hacts =>
        hattributes.acts hseats hprovisions htracks hallowed hacts)
      (fun thread hattributes => hattributes.release thread)
      ⟨hstart, fun hholder => absurd hholder nofun⟩ hreachable hapart
  obtain ⟨hkeeping, -⟩ := hattributes
  generalize pool.state.world.db = db at hkeeping
  have hbelongs : ∀ ref ∈ db.refs.rows, ∀ mailbox ∈ db.mailboxes.rows,
      ref.mailboxID = some mailbox.id → ∃ resourceID, mailbox.scimResourceID = some resourceID ∧
        ∀ resource ∈ db.resources.rows, resource.id = resourceID →
          resource.resourceType = userType ∧ resource.externalID = ref.subject := by
    intro ref href mailbox hmailbox hbound
    obtain ⟨-, other, hother, hid, hresource⟩ := hkeeping.attributed ref href mailbox.id hbound
    rwa [db.mailboxes.eq_of_key_eq hother hmailbox hid] at hresource
  constructor
  · intro id now session ref mailbox domain hrows
    simp only [Directory.sessionRows, Option.bind_eq_bind, Option.bind_eq_some_iff,
      Option.ite_none_right_eq_some, Bool.and_eq_true, Option.some.injEq, Prod.mk.injEq] at hrows
    obtain ⟨_, -, _, href, mailboxID, hbound, _, hfind, _, -,
      ⟨-, henabled⟩, rfl, rfl, rfl, rfl⟩ := hrows
    obtain ⟨hmailbox, rfl⟩ := Table.find?_eq_some_iff.mp hfind
    obtain ⟨resourceID, howner, hsubject⟩ := hbelongs _
      (Table.find?_eq_some_iff.mp href).1 _ hmailbox hbound
    obtain ⟨resource, hresource, rfl⟩ := hkeeping.seated.live _ hmailbox henabled resourceID howner
    exact ⟨resource, hresource, howner, hsubject resource hresource rfl⟩
  · intro ref href mailbox hmailbox hbound resource hresource howner
    obtain ⟨resourceID, hseat, hsubject⟩ := hbelongs ref href mailbox hmailbox hbound
    exact (hsubject resource hresource (Option.some.inj (howner.symm.trans hseat))).2

end Runs

/-- Two users are created, and one of them logs in while its external identifier is
replaced. -/
def subjectJobs : Thread → AccountJob
  | 0 => .provision ⟨plainClient, none, [.create (plainUser "u1" "ann" "+a@x.test" "1"),
      .create (plainUser "u2" "bob" "+b@x.test" "1")]⟩
  | 1 => .login ⟨ascii "ann", ascii "idp", ascii "a@x.test"⟩
      ⟨ascii "session", [], [], ascii "oidc", 1, 100, 1⟩
  | _ => .provision ⟨plainClient, none,
      [.replace (plainUser "u1" "eve" "+a@x.test" "2") (ascii "1")]⟩

def subjectIDs : List Text := [ascii "u1", ascii "u2"]

theorem subjectIDs_seats : Set.InjOn seatID { id | id ∈ subjectIDs } := by
  have hnodup : (subjectIDs.map seatID).Nodup := by decide +kernel
  exact fun _ hfirst _ hsecond => List.inj_on_of_nodup_map hnodup hfirst hsecond

theorem subjectJobs_enrol (thread : Thread) (batch : ScimBatch)
    (hjob : subjectJobs thread = .provision batch) : batch.Enrols { id | id ∈ subjectIDs } := by
  unfold subjectJobs at hjob
  split at hjob
  · cases hjob
    refine ⟨rfl, fun record hrecord => ?_⟩
    rcases List.mem_cons.mp hrecord with hfirst | hsecond
    · rw [ScimCall.create.inj hfirst]
      exact List.mem_cons_self
    · rw [ScimCall.create.inj (List.mem_singleton.mp hsecond)]
      exact List.mem_cons_of_mem _ List.mem_cons_self
  · cases hjob
  · cases hjob
    refine ⟨rfl, fun record hrecord => ?_⟩
    cases List.mem_singleton.mp hrecord

theorem empty_keeping (ids : Set Text) : ScimSite.Keeping ids .empty where
  seated := ⟨fun _ hrow => absurd hrow List.not_mem_nil, fun _ hrow => absurd hrow List.not_mem_nil,
    fun _ hrow => absurd hrow List.not_mem_nil, fun _ hrow => absurd hrow List.not_mem_nil,
    fun _ hrow => absurd hrow List.not_mem_nil, fun _ hrow => absurd hrow List.not_mem_nil⟩
  attributed := fun _ href => absurd href List.not_mem_nil

/-- The user logs in, and nobody interferes. -/
def subjectRun : AccountRun := Directory.empty.scheduled plainScim subjectJobs [(0, 2), (1, 4)]

def subjectCreated : Directory :=
  (Directory.empty.scheduled plainScim subjectJobs [(0, 2)]).2.world.db

theorem subjectRun_shows : subjectRun.pool.state.world.journal =
      [.admitted 1 (ascii "ann") (seatID (ascii "u1"))
          ⟨ascii "session", ascii "ref", [], ascii "oidc", 1, 100, 1⟩,
        .entered 1, .committed 0 .empty subjectCreated, .began 0] ∧
    ∃ rows ∈ subjectRun.pool.state.world.db.sessionRows (ascii "session") 5,
      rows.2.1.subject = ascii "ann" := by
  decide +kernel

theorem sessions_attributed_ann :
    ∃ rows ∈ subjectRun.pool.state.world.db.sessionRows (ascii "session") 5,
      rows.2.1.subject = ascii "ann" ∧ ∃ resource ∈ subjectRun.pool.state.world.db.resources.rows,
        rows.2.2.1.scimResourceID = some resource.id ∧ resource.resourceType = userType ∧
        resource.externalID = rows.2.1.subject := by
  have hreachable := Directory.empty.scheduled_reachable plainScim subjectJobs [(0, 2), (1, 4)]
  rw [show Directory.empty.scheduled plainScim subjectJobs [(0, 2), (1, 4)] =
    subjectRun from rfl] at hreachable
  obtain ⟨hjournal, ⟨session, ref, mailbox, domain⟩, hrows, hsubject⟩ := subjectRun_shows
  generalize subjectRun.pool = pool at hreachable hjournal hrows ⊢
  have hapart : ¬ Overlaps Directory.Belongs pool.state.world.journal := by
    rintro ⟨login, transaction, _, after, _, _, _, hcommitted, -⟩
    rw [hjournal] at hcommitted
    simp [List.cons_sublist_cons'] at hcommitted
  exact ⟨_, hrows, hsubject, (sessions_attributed plainScim subjectJobs _ subjectIDs_seats
    subjectJobs_enrol (empty_keeping _) hreachable hapart).1 (ascii "session") 5 session ref
    mailbox domain hrows⟩

/-- The replacement takes its snapshot, the login is admitted, and the
replacement is committed. -/
def skewedRun : AccountRun :=
  Directory.empty.scheduled plainScim subjectJobs [(0, 2), (1, 2), (2, 1), (1, 2), (2, 1)]

theorem skewedRun_shows :
    ∃ rows ∈ skewedRun.pool.state.world.db.sessionRows (ascii "session") 5,
      rows.2.1.subject = ascii "ann" ∧ ∃ resource ∈ skewedRun.pool.state.world.db.resources.rows,
        rows.2.2.1.scimResourceID = some resource.id ∧ resource.externalID = ascii "eve" := by
  decide +kernel

/-- A session of one subject opens the mailbox of a user with another one. -/
theorem skewedRun_foreign :
    (accountMachine byteLocale).Reachable (.fresh .empty)
        (fun thread => (subjectJobs thread).program plainScim) skewedRun.pool ∧
      ∃ rows ∈ skewedRun.pool.state.world.db.sessionRows (ascii "session") 5,
        rows.2.1.subject = ascii "ann" ∧ ∃ resource ∈ skewedRun.pool.state.world.db.resources.rows,
          rows.2.2.1.scimResourceID = some resource.id ∧ resource.externalID = ascii "eve" :=
  ⟨Directory.empty.scheduled_reachable plainScim subjectJobs _, skewedRun_shows⟩

end GotthMail
