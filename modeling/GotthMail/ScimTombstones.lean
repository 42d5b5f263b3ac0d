/-
Tombstones over whole histories of SCIM transactions.  They are never removed
and no live resource takes their identifier.  Their external identifiers are
reserved only when a resource is created: a replacement may take one, and a
deleted resource may have shared its own with a live one.
-/
import GotthMail.ScimMoves

namespace GotthMail

open Bytes Relational

/-- A resource with the external identifier of a tombstone. -/
def ResourceRow.Clashes (row : ResourceRow) (stone : Tombstone) : Prop :=
  row.externalID ≠ [] ∧ row.scope = stone.scope ∧
    row.resourceType = stone.resourceType ∧ row.externalID = stone.externalID

instance (row : ResourceRow) (stone : Tombstone) : Decidable (row.Clashes stone) :=
  inferInstanceAs (Decidable (_ ∧ _ ∧ _ ∧ _))

namespace Directory

/-- No live resource has the identifier of a tombstone. -/
def Retired (db : Directory) : Prop :=
  ∀ row ∈ db.resources.rows, ∀ stone ∈ db.tombstones.rows, row.id ≠ stone.id

/-- No live resource has the external identifier of a tombstone. -/
def Distinguished (db : Directory) : Prop :=
  ∀ row ∈ db.resources.rows, ∀ stone ∈ db.tombstones.rows, ¬ row.Clashes stone

/-- Every tombstone of an earlier state is still there. -/
def Remembers (start db : Directory) : Prop :=
  ∀ stone ∈ start.tombstones.rows, stone ∈ db.tombstones.rows

/-- A call that does not give a live resource the external identifier of a
tombstone: a replacement takes none, and a deleted resource shares its own with
no live one. -/
def Spares (db : Directory) : ScimCall → Prop
  | .replace record _ =>
    ∀ current ∈ db.resource? record.scope record.resourceType record.id,
      current.externalID ≠ record.externalID →
      ∀ stone ∈ db.tombstones.rows, ¬ record.toResourceRow.Clashes stone
  | .delete scope resourceType id _ stone =>
    (db.resource? scope resourceType id).isSome →
    ∀ row ∈ db.resources.rows, row.id ≠ id → ¬ row.Clashes stone
  | _ => True

variable {db : Directory} {record : ResourceRow}

theorem reserved_eq_false_iff : db.reserved record = false ↔
    ∀ stone ∈ db.tombstones.rows, record.id ≠ stone.id ∧ ¬ record.Clashes stone := by
  simp only [reserved, List.any_eq_false, Bool.or_eq_true, Bool.and_eq_true,
    beq_iff_eq, bne_iff_ne, not_or, ResourceRow.Clashes]
  refine forall₂_congr fun stone _ => and_congr ne_comm ?_
  constructor
  · rintro hnone ⟨hexternal, hscope, htype, hsame⟩
    exact hnone ⟨⟨⟨hexternal, hscope.symm⟩, htype.symm⟩, hsame.symm⟩
  · rintro hnone ⟨⟨⟨hexternal, hscope⟩, htype⟩, hsame⟩
    exact hnone ⟨hexternal, hscope.symm, htype.symm, hsame.symm⟩

/-- A row after a replacement is the replacement or an old row. -/
theorem mem_revised {row : ResourceRow} (hrow : row ∈ (db.revised record).rows) :
    row ∈ db.resources.rows ∨ ∃ old ∈ db.resources.rows,
      row = revise record old ∧ old.scope = record.scope ∧
        old.resourceType = record.resourceType ∧ old.id = record.id := by
  obtain ⟨old, hold, rfl⟩ := List.mem_map.mp hrow
  split
  · next hmatch =>
      simp only [Bool.and_eq_true, beq_iff_eq] at hmatch
      exact .inr ⟨old, hold, rfl, hmatch.1.1, hmatch.1.2, hmatch.2⟩
  · exact .inl hold

end Directory

namespace ScimSite

variable {site : ScimSite} {request : ScimRequest} {tx after : ScimTransaction}
  {call : ScimCall} {start : Directory}

/-- The moves that follow touch neither resources nor tombstones. -/
theorem Moves.scim_eq (hmoves : site.Moves request tx after) :
    after.view.resources = tx.view.resources ∧ after.view.tombstones = tx.view.tombstones := by
  cases hmoves with
  | reindexed hmoves =>
    obtain ⟨_, _, rfl⟩ := hmoves
    exact ⟨rfl, rfl⟩
  | regrouped hmoves =>
    obtain ⟨_, rfl⟩ := hmoves
    exact ⟨rfl, rfl⟩
  | consumed hclaim => exact ⟨rfl, rfl⟩
  | projected htype hlive hmoves =>
    obtain ⟨_, _, _, middle, _, _, hdrafts, _, _, _, hpersists, rfl⟩ := hmoves
    obtain ⟨_, _, _, _, rfl⟩ := hpersists.frame
    dsimp only
    rw [hdrafts.unchanged.2.1]
    exact ⟨rfl, rfl⟩

/-- What burying a resource does to the two tables. -/
theorem Buries.scim_eq {stone : Tombstone} (hburies : site.Buries request stone tx after) :
    (∃ current, tx.view.resource? stone.scope stone.resourceType stone.id =
      some current ∧ stone.externalID = current.externalID) ∧
    after.view.resources.rows = tx.view.resources.rows.filter (fun row =>
      !(row.scope == stone.scope && row.resourceType == stone.resourceType && row.id == stone.id)) ∧
    after.view.tombstones.rows = tx.view.tombstones.rows ++ [stone] := by
  obtain ⟨current, middle, removed, next, hfound, hexternal, hdisables, hremove,
    hbury, rfl⟩ := hburies
  obtain ⟨mailboxes, sessions, hview⟩ := hdisables.frame
  obtain ⟨indexes, members, rfl⟩ := Directory.deleteResource_ok hremove
  obtain ⟨tombstones, rfl, hrows⟩ := Directory.insertTombstone_ok hbury
  refine ⟨⟨current, hfound, hexternal⟩, ?_, ?_⟩
  · change middle.view.resources.rows.filter _ = _
    rw [hview]
  · change tombstones.rows = _
    rw [hrows, hview]

/-- A live resource beside a tombstone after the first move of a call is as it was,
or it or the tombstone is new. -/
theorem Opens.pair (hopens : site.Opens request call tx after) {row : ResourceRow}
    {stone : Tombstone} (hrow : row ∈ after.view.resources.rows)
    (hstone : stone ∈ after.view.tombstones.rows) :
    (∃ old ∈ tx.view.resources.rows, stone ∈ tx.view.tombstones.rows ∧ old.id = row.id ∧
      (tx.view.Spares call → ¬ old.Clashes stone → ¬ row.Clashes stone)) ∨
    row.id ≠ stone.id ∧ (tx.view.Spares call → ¬ row.Clashes stone) := by
  cases hopens with
  | @inserted _ _ record hmoves =>
    obtain ⟨hfree, resources, hinsert, rfl⟩ := hmoves
    change row ∈ resources.rows at hrow
    rw [(Table.insert_eq_some_iff.mp hinsert).2, List.mem_append, List.mem_singleton] at hrow
    rcases hrow with hrow | rfl
    · exact .inl ⟨row, hrow, hstone, rfl, fun _ hclear => hclear⟩
    · exact .inr ((Directory.reserved_eq_false_iff.mp hfree stone hstone).imp_right fun h _ => h)
  | @revised _ _ record expectedVersion hmoves =>
    obtain ⟨⟨current, hfound, -⟩, rfl⟩ := hmoves
    left
    rcases Directory.mem_revised hrow with hrow | ⟨old, hold, rfl, hscope, htype, hid⟩
    · exact ⟨row, hrow, hstone, rfl, fun _ hclear => hclear⟩
    · refine ⟨old, hold, hstone, rfl, fun hspares hclear => ?_⟩
      obtain ⟨hcurrent, -, -, hcurrentID⟩ := Directory.resource?_eq_some hfound
      have hsame := tx.view.resources.eq_of_key_eq hold hcurrent (hid.trans hcurrentID.symm)
      subst hsame
      by_cases hexternal : old.externalID = record.externalID
      · unfold ResourceRow.Clashes at hclear ⊢
        rwa [hexternal] at hclear
      · have hclear := hspares old hfound hexternal stone hstone
        unfold ResourceRow.Clashes at hclear ⊢
        rwa [← hscope, ← htype] at hclear
  | @buried _ _ buried expectedVersion hmoves =>
    obtain ⟨⟨current, hfound, -⟩, hresources, hstones⟩ := hmoves.scim_eq
    obtain ⟨hcurrent, hscope, htype, hid⟩ := Directory.resource?_eq_some hfound
    rw [hresources, List.mem_filter] at hrow
    rw [hstones, List.mem_append, List.mem_singleton] at hstone
    rcases hstone with hstone | rfl
    · exact .inl ⟨row, hrow.1, hstone, rfl, fun _ hclear => hclear⟩
    · have hother : row.id ≠ stone.id := by
        intro hsame
        -- The identifier is unique, so a row that has it was the one removed.
        have hrow' := tx.view.resources.eq_of_key_eq hrow.1 hcurrent (hsame.trans hid.symm)
        subst hrow'
        simp [hscope, htype, hid] at hrow
      exact .inr ⟨hother, fun hspares => hspares (by rw [hfound]; rfl) row hrow.1 hother⟩
  | noted => exact .inl ⟨row, hrow, hstone, rfl, fun _ hclear => hclear⟩

theorem Opens.retired (hopens : site.Opens request call tx after)
    (hretired : tx.view.Retired) (hremembers : start.Remembers tx.view) :
    after.view.Retired ∧ start.Remembers after.view := by
  constructor
  · intro row hrow stone hstone
    rcases hopens.pair hrow hstone with ⟨old, hold, hstone, hid, -⟩ | ⟨hother, -⟩
    · exact hid ▸ hretired old hold stone hstone
    · exact hother
  · cases hopens with
    | inserted hmoves =>
      obtain ⟨-, resources, -, rfl⟩ := hmoves
      exact hremembers
    | revised expectedVersion hmoves =>
      rw [hmoves.changed]
      exact hremembers
    | buried expectedVersion hmoves =>
      intro other hother
      rw [hmoves.scim_eq.2.2]
      exact List.mem_append_left _ (hremembers other hother)
    | noted => exact hremembers

theorem Opens.distinguished (hopens : site.Opens request call tx after)
    (hspares : tx.view.Spares call) (hdistinguished : tx.view.Distinguished) :
    after.view.Distinguished := by
  intro row hrow stone hstone
  rcases hopens.pair hrow hstone with ⟨old, hold, hstone, -, hclear⟩ | ⟨-, hclear⟩
  · exact hclear hspares (hdistinguished old hold stone hstone)
  · exact hclear hspares

variable (site request) in
/-- Every call of a callback spares the tombstones it sees. -/
def SparesAll : List ScimCall → ScimTransaction → Prop
  | [], _ => True
  | call :: rest, tx => tx.view.Spares call ∧ SparesAll rest (site.perform request call tx).2

theorem moves_distinguished (hsteps : Relation.ReflTransGen (site.Moves request) tx after)
    (htx : tx.view.Distinguished) : after.view.Distinguished := by
  have hkeeps : ∀ {tx after : ScimTransaction}, tx.view.Distinguished →
      site.Moves request tx after → after.view.Distinguished := by
    intro tx after htx hmove
    unfold Directory.Distinguished
    rwa [hmove.scim_eq.1, hmove.scim_eq.2]
  exact moves_invariant hkeeps hsteps htx

theorem performAll_distinguished {calls : List ScimCall} (hspares : site.SparesAll request calls tx)
    (htx : tx.view.Distinguished) :
    (site.performAll request calls tx).aborted = true ∨
      (site.performAll request calls tx).view.Distinguished := by
  induction calls generalizing tx with
  | nil => exact .inr htx
  | cons call rest ih =>
    obtain ⟨opened, hopened, hreaches⟩ := perform_leaves call tx
    have hopened : opened.view.Distinguished := by
      rcases hopened with rfl | hopens
      · exact htx
      · exact hopens.distinguished hspares.1 htx
    rcases hreaches with haborted | hsteps
    · exact .inl (performAll_aborted rest haborted)
    · exact ih hspares.2 (moves_distinguished hsteps hopened)

theorem performAll_retired (calls : List ScimCall)
    (htx : tx.view.Retired ∧ start.Remembers tx.view) :
    (site.performAll request calls tx).aborted = true ∨
      (site.performAll request calls tx).view.Retired ∧
        start.Remembers (site.performAll request calls tx).view := by
  have hopens : ∀ {call : ScimCall} {tx after : ScimTransaction},
      tx.view.Retired ∧ start.Remembers tx.view → site.Opens request call tx after →
        after.view.Retired ∧ start.Remembers after.view :=
    fun htx hopens => hopens.retired htx.1 htx.2
  have hmoves : ∀ {tx after : ScimTransaction},
      tx.view.Retired ∧ start.Remembers tx.view → site.Moves request tx after →
        after.view.Retired ∧ start.Remembers after.view := by
    intro tx after htx hmove
    unfold Directory.Retired Directory.Remembers
    rwa [hmove.scim_eq.1, hmove.scim_eq.2]
  exact performAll_invariant calls (fun _ => hopens) hmoves htx

variable (site)

/-- The database after a history of transactions; one that does not commit
leaves it as it was. -/
def replay (history : List ScimBatch) (db : Directory) : Directory :=
  history.foldl (fun db batch => (site.transact batch db).getD db) db

/-- Every transaction of a history spares the tombstones. -/
def SparingHistory : List ScimBatch → Directory → Prop
  | [], _ => True
  | batch :: rest, db =>
    site.SparesAll batch.request batch.calls (begin batch.claim db) ∧
      SparingHistory rest ((site.transact batch db).getD db)

variable {site}

variable {batch : ScimBatch} {db : Directory}

theorem transact_view {next : Directory} (htransact : site.transact batch db = some next) :
    (site.performAll batch.request batch.calls (begin batch.claim db)).aborted = false ∧
      next = (site.performAll batch.request batch.calls (begin batch.claim db)).view := by
  unfold transact committed at htransact
  split at htransact
  · cases htransact
  · next hopen =>
      cases htransact
      simp only [Bool.or_eq_true, not_or, Bool.not_eq_true] at hopen
      exact ⟨hopen.1, rfl⟩

theorem transact_retired (hdb : db.Retired ∧ start.Remembers db) :
    ((site.transact batch db).getD db).Retired ∧
      start.Remembers ((site.transact batch db).getD db) := by
  cases htransact : site.transact batch db with
  | none => exact hdb
  | some next =>
    obtain ⟨hopen, rfl⟩ := transact_view htransact
    have htx : (begin batch.claim db).view.Retired ∧
        start.Remembers (begin batch.claim db).view := hdb
    refine (performAll_retired batch.calls htx).resolve_left ?_
    rw [hopen]
    exact Bool.false_ne_true

theorem transact_distinguished
    (hspares : site.SparesAll batch.request batch.calls (begin batch.claim db))
    (hdb : db.Distinguished) : ((site.transact batch db).getD db).Distinguished := by
  cases htransact : site.transact batch db with
  | none => exact hdb
  | some next =>
    obtain ⟨hopen, rfl⟩ := transact_view htransact
    refine (performAll_distinguished hspares hdb).resolve_left ?_
    rw [hopen]
    exact Bool.false_ne_true

theorem replay_retired (history : List ScimBatch) (hdb : db.Retired ∧ start.Remembers db) :
    (site.replay history db).Retired ∧ start.Remembers (site.replay history db) := by
  induction history generalizing db with
  | nil => exact hdb
  | cons batch rest ih => exact ih (transact_retired hdb)

theorem replay_distinguished {history : List ScimBatch}
    (hspares : site.SparingHistory history db) (hdb : db.Distinguished) :
    (site.replay history db).Distinguished := by
  induction history generalizing db with
  | nil => exact hdb
  | cons batch rest ih =>
    exact ih hspares.2 (transact_distinguished hspares.1 hdb)

/-- Tombstones keep their identifiers from every live resource and are never
removed; they keep their external identifiers in histories that spare them. -/
theorem tombstones_permanent (history : List ScimBatch) {start : Directory}
    (hstart : start.Retired) :
    (site.replay history start).Retired ∧ start.Remembers (site.replay history start) ∧
      (start.Distinguished → site.SparingHistory history start →
        (site.replay history start).Distinguished) := by
  obtain ⟨hretired, hremembers⟩ := replay_retired history ⟨hstart, fun _ hstone => hstone⟩
  exact ⟨hretired, hremembers, fun hdistinguished hspares =>
    replay_distinguished hspares hdistinguished⟩

/-- Each transaction makes one call. -/
def plainHistory (calls : List ScimCall) : List ScimBatch :=
  calls.map fun call => ⟨plainClient, none, [call]⟩

/-- A user is deleted and another one renamed to a free subject. -/
def sparingHistory : List ScimBatch :=
  plainHistory [.create (plainUser "u1" "ann" "+a@x.test" "1"), plainDelete "u1" "ann" "1",
    .create (plainUser "u2" "bob" "+b@x.test" "1"),
    .replace (plainUser "u2" "eve" "+b@x.test" "2") (ascii "1")]

theorem tombstones_permanent_sparing :
    Directory.empty.Retired ∧ Directory.empty.Distinguished ∧
      plainScim.SparingHistory sparingHistory .empty ∧
      (plainScim.replay sparingHistory .empty).Distinguished := by
  have hretired : Directory.empty.Retired := by
    intro row hrow
    cases hrow
  have hdistinguished : Directory.empty.Distinguished := by
    intro row hrow
    cases hrow
  have hspares : plainScim.SparingHistory sparingHistory .empty := by
    refine ⟨⟨trivial, trivial⟩, ⟨?_, trivial⟩, ⟨trivial, trivial⟩, ⟨?_, trivial⟩, trivial⟩
    · unfold plainDelete Directory.Spares
      decide +kernel
    · unfold Directory.Spares
      decide +kernel
  exact ⟨hretired, hdistinguished, hspares,
    (tombstones_permanent sparingHistory hretired).2.2 hdistinguished hspares⟩

/-- After its deletion a user's subject goes to another user by a replacement,
or stays with one that shared it. -/
theorem tombstone_subject_taken :
    ¬ (plainScim.replay (plainHistory [.create (plainUser "u1" "ann" "+a@x.test" "1"),
        plainDelete "u1" "ann" "1", .create (plainUser "u2" "bob" "+b@x.test" "1"),
        .replace (plainUser "u2" "ann" "+b@x.test" "2") (ascii "1")])
      .empty).Distinguished ∧
    ¬ (plainScim.replay (plainHistory [.create (plainUser "u1" "ann" "+a@x.test" "1"),
        .create (plainUser "u2" "ann" "+b@x.test" "1"),
        plainDelete "u1" "ann" "1"]) .empty).Distinguished := by
  unfold Directory.Distinguished
  decide +kernel

end ScimSite

end GotthMail
