/-
What holds in every run of logins and SCIM transactions.  While a transaction is
under way only logins commit, and what they have added since its snapshot is on
record.  What a login has found at its mailbox stays true until it is admitted,
unless a SCIM transaction has overlapped with it.
-/
import GotthMail.Logins

namespace GotthMail

open Bytes Relational Calls

open scoped List

namespace Directory

variable {db next : Directory}

theorem bindIdentity_ok {ref : IdentityRef} {refID : Text} {bound : Option Text}
    (hok : db.bindIdentity ref = .ok ((refID, bound), next)) :
    ∃ (refs : IdentityRefs) (row : IdentityRef), next = { db with refs := refs } ∧
      row ∈ refs.rows ∧ row.id = refID ∧ row.mailboxID = bound ∧
      row.provider = ref.provider ∧ row.subject = ref.subject ∧
      (refs = db.refs ∨ refs.rows = db.refs.rows ++ [row]) := by
  unfold bindIdentity at hok
  split at hok
  · next row hfind =>
      cases hok
      have hmatch := List.find?_some hfind
      simp only [Bool.and_eq_true, beq_iff_eq] at hmatch
      exact ⟨db.refs, row, rfl, List.mem_of_find?_eq_some hfind, rfl, rfl,
        hmatch.1.1, hmatch.2, .inl rfl⟩
  · split at hok
    · split at hok
      · cases hok
      · next refs hinsert =>
          cases hok
          obtain ⟨table, htable, haccept⟩ := Option.bind_eq_some_iff.mp hinsert
          have hrows : refs.rows = db.refs.rows ++ [ref] := by
            rw [Constrained.accept_eq_some_iff.mp haccept]
            exact (Table.insert_eq_some_iff.mp htable).2
          refine ⟨refs, ref, rfl, ?_, rfl, rfl, rfl, rfl, .inr hrows⟩
          simp [hrows]
    · cases hok

theorem insertSession_ok {session : Session} (hok : db.insertSession session = .ok next) :
    ∃ sessions, next = { db with sessions := sessions } ∧
      sessions.rows = db.sessions.rows ++ [session.row] := by
  unfold insertSession at hok
  split at hok
  · split at hok
    · cases hok
    · next sessions hinsert =>
        cases hok
        exact ⟨sessions, rfl, (Table.insert_eq_some_iff.mp hinsert).2⟩
  · cases hok

/-- What a login has written: its session, and its reference unless there was
one for the same mailbox. -/
structure Admits (subject mailboxID : Text) (session : Session)
    (db next : Directory) : Prop where
  written : ∃ (refs : IdentityRefs) (ref : IdentityRef) (sessions : Table SessionRow SessionRow.id),
    next = { db with refs := refs, sessions := sessions } ∧
    sessions.rows = db.sessions.rows ++ [session.row] ∧ ref ∈ refs.rows ∧
    ref.id = session.identityRefID ∧ ref.provider = .authentik ∧
    ref.subject = subject ∧ ref.mailboxID = some mailboxID ∧
    (refs = db.refs ∨ refs.rows = db.refs.rows ++ [ref])

theorem admitSession_ok {identityID mailboxID : Text} {identity : OidcIdentity}
    {session stored : Session} (hok : db.admitSession identityID identity mailboxID session =
      .ok (stored, next)) :
    Admits identity.subject mailboxID stored db next := by
  unfold admitSession at hok
  obtain ⟨⟨⟨refID, bound⟩, middle⟩, hbind, hok⟩ := bind_ok_iff.mp hok
  obtain ⟨refs, ref, rfl, href, hid, hbound, hprovider, hsubject, hrefs⟩ := bindIdentity_ok hbind
  cases bound with
  | none => cases hok
  | some boundMailboxID =>
    simp only [bind_ok_iff, check_ok_iff, pure_ok_iff, beq_iff_eq] at hok
    obtain ⟨_, hsame, middle, hinsert, hstored⟩ := hok
    obtain ⟨sessions, rfl, hsessions⟩ := insertSession_ok hinsert
    cases hstored
    exact ⟨refs, ref, sessions, rfl, hsessions, href, hid, hprovider, hsubject,
      hsame ▸ hbound, hrefs⟩

/-- Only logins have written since. -/
def Alike (base db : Directory) : Prop :=
  ∃ refs sessions, db = { base with refs := refs, sessions := sessions }

/-- A transaction commits what it has written, next to what logins have added. -/
theorem merge_alike {base mine : Directory} (halike : Alike base db)
    (hmerge : merge base mine db = some next) :
    ∃ (refs : IdentityRefs) (sessions : Table SessionRow SessionRow.id),
      next = { mine with refs := refs, sessions := sessions } ∧
      Table.merge base.refs.toTable mine.refs.toTable db.refs.toTable = some refs.toTable ∧
      Table.merge base.sessions mine.sessions db.sessions = some sessions := by
  obtain ⟨refs, sessions, rfl⟩ := halike
  unfold merge at hmerge
  simp only [Constrained.merge_base, Table.merge_base, Option.bind_eq_bind,
    Option.bind_some] at hmerge
  obtain ⟨mergedRefs, hrefs, hmerge⟩ := Option.bind_eq_some_iff.mp hmerge
  obtain ⟨mergedSessions, hsessions, hmerge⟩ := Option.bind_eq_some_iff.mp hmerge
  cases hmerge
  exact ⟨mergedRefs, mergedSessions, rfl, Constrained.merge_toTable hrefs, hsessions⟩

theorem mem_loginCandidates {locale : Locale} {subject : Text} {candidate : LoginCandidate}
    (hmem : candidate ∈ db.loginCandidates locale subject) :
    ∃ resource ∈ db.resources.rows, ∃ mailbox ∈ db.mailboxes.rows,
      mailbox.id = candidate.mailboxID ∧ mailbox.enabled = true ∧
      mailbox.scimResourceID = some resource.id ∧
      resource.resourceType = userType ∧ resource.externalID = subject := by
  obtain ⟨⟨resource, place⟩, hfound, rfl⟩ := List.mem_map.mp hmem
  have hsorted := (Collation.mem_sortBy _ _).mp (List.mem_of_mem_take hfound)
  obtain ⟨other, hresource, hplace⟩ := List.mem_flatMap.mp hsorted
  obtain ⟨_, hkept, hsame⟩ := List.mem_map.mp hplace
  cases hsame
  simp only [List.mem_filter, Bool.and_eq_true, beq_iff_eq] at hkept
  obtain ⟨hlocated, ⟨⟨howner, htype⟩, hexternal⟩, henabled⟩ := hkept
  exact ⟨resource, hresource, place.1, (mem_located.mp hlocated).1, rfl, henabled,
    howner, htype, hexternal⟩

end Directory

/-- What logins find out about a mailbox: it holds of every candidate, and
logins leave it alone. -/
structure Finding (locale : Locale) (good : Directory → Text → Text → Prop) :
    Prop where
  found : ∀ {db : Directory} {subject : Text} {candidate : LoginCandidate},
    candidate ∈ db.loginCandidates locale subject → good db subject candidate.mailboxID
  kept : ∀ {db : Directory} {subject mailboxID : Text} (refs : IdentityRefs)
    (sessions : Table SessionRow SessionRow.id), good db subject mailboxID →
      good { db with refs := refs, sessions := sessions } subject mailboxID

/-- A login and a SCIM transaction of which neither ended before the other began,
and the transaction has spoilt what the login found. -/
def Overlaps (good : Directory → Text → Text → Prop) (journal : List AccountEntry) : Prop :=
  ∃ login transaction base after subject mailboxID session,
    [.committed transaction base after, .entered login] <+ journal ∧
    [.admitted login subject mailboxID session, .began transaction] <+ journal ∧
    ¬ good after subject mailboxID

theorem Overlaps.mono {good : Directory → Text → Text → Prop}
    {journal later : List AccountEntry} (hlater : journal <+ later)
    (hoverlaps : Overlaps good journal) : Overlaps good later := by
  obtain ⟨login, transaction, base, after, subject, mailboxID, session, hcommitted,
    hadmitted, hbad⟩ := hoverlaps
  exact ⟨login, transaction, base, after, subject, mailboxID, session,
    hcommitted.trans hlater, hadmitted.trans hlater, hbad⟩

theorem pair_sublist {α : Type} {first second : α} {rest : List α}
    (hsecond : second ∈ rest) : [first, second] <+ first :: rest :=
  (List.singleton_sublist.mpr hsecond).cons_cons first

/-- A login was admitted after a transaction had begun. -/
def Since (transaction login : Thread) (subject mailboxID : Text)
    (session : Session) (journal : List AccountEntry) : Prop :=
  [.admitted login subject mailboxID session, .began transaction] <+ journal ∧
    .entered login ∈ journal

theorem Since.mono {transaction login : Thread} {subject mailboxID : Text}
    {session : Session} {journal later : List AccountEntry} (hlater : journal <+ later)
    (hsince : Since transaction login subject mailboxID session journal) :
    Since transaction login subject mailboxID session later :=
  ⟨hsince.1.trans hlater, hlater.subset hsince.2⟩

/-- What has been committed since the snapshot of a transaction. -/
structure Advances (transaction : Thread) (base : Directory)
    (world : AccountWorld) : Prop where
  began : .began transaction ∈ world.journal
  alike : base.Alike world.db
  keptRefs : ∀ ref ∈ base.refs.rows, ref ∈ world.db.refs.rows
  keptSessions : ∀ row ∈ base.sessions.rows, row ∈ world.db.sessions.rows
  newRefs : ∀ ref ∈ world.db.refs.rows, ref ∈ base.refs.rows ∨
    ∃ login mailboxID session, ref.mailboxID = some mailboxID ∧
      Since transaction login ref.subject mailboxID session world.journal
  newSessions : ∀ row ∈ world.db.sessions.rows, row ∈ base.sessions.rows ∨
    ∃ login subject mailboxID session, row = session.row ∧
      (∃ ref ∈ world.db.refs.rows, ref.id = row.identityRefID ∧ ref.mailboxID = some mailboxID) ∧
      Since transaction login subject mailboxID session world.journal

/-- The journal accounts for the world. -/
structure Tracks (world : AccountWorld) : Prop where
  began : ∀ {transaction base after}, .committed transaction base after ∈ world.journal →
    .began transaction ∈ world.journal
  entered : ∀ {login subject mailboxID session},
    .admitted login subject mailboxID session ∈ world.journal → .entered login ∈ world.journal
  advances : ∀ {transaction base}, world.holder = some (transaction, base) →
    Advances transaction base world

section Runs

variable (site : ScimSite) (good : Directory → Text → Text → Prop) (jobs : Thread → AccountJob)

/-- A login has begun, and what it has found still holds unless a transaction
has spoilt it in the meantime. -/
def Grounded (login : Thread) (subject mailboxID : Text) (world : AccountWorld) : Prop :=
  .entered login ∈ world.journal ∧ (good world.db subject mailboxID ∨ ∃ transaction base after,
      [.committed transaction base after, .entered login] <+ world.journal ∧
      ¬ good after subject mailboxID)

/-- The calls that the jobs make. -/
def accountAllowed (thread : Thread) (state : Moment accountInterface AccountWorld) :
    AccountCall → Prop
  | .admitLogin _ identity mailboxID _ =>
    Grounded good thread identity.subject mailboxID state.world
  | .commit base view => ∃ batch, jobs thread = .provision batch ∧
      site.transact batch base = some view
  | _ => True

variable {site good jobs} {world after : AccountWorld} {thread login : Thread}
  {subject mailboxID : Text}

/-- The ways in which a statement changes the world. -/
inductive Changes (thread : Thread) (world : AccountWorld) :
    AccountCall → AccountWorld → Prop
  | idle {call : AccountCall} : Changes thread world call world
  | released {call : AccountCall} : Changes thread world call (world.release thread)
  | entered : Changes thread world .enter (world.enter thread)
  | admitted {identityID mailboxID : Text} {identity : OidcIdentity}
      {session stored : Session} {db : Directory}
      (haccept : world.db.admitSession identityID identity mailboxID session = .ok (stored, db)) :
      Changes thread world (.admitLogin identityID identity mailboxID session)
        (world.admitLogin thread identity.subject mailboxID stored db)
  | began : Changes thread world .begin (world.snapshot thread)
  | committed {base view db : Directory} (hholder : world.holder = some (thread, base))
      (hmerge : Directory.merge base view world.db = some db) :
      Changes thread world (.commit base view) (world.install thread base db)

theorem does_changes {locale : Locale} {call : AccountCall} {answer : call.Answer}
    (hdoes : world.Does locale thread call answer after) :
    Changes thread world call after := by
  cases call with
  | enter => rcases hdoes with ⟨-, rfl⟩ | ⟨-, rfl⟩ <;> constructor
  | resolve subject =>
    obtain ⟨rfl, -⟩ := hdoes
    exact .idle
  | randomUUID =>
    cases hdoes
    exact .idle
  | admitLogin identityID identity mailboxID session =>
    rcases hdoes with ⟨stored, db, haccept, rfl, -⟩ | ⟨rfl, -⟩
    · exact .admitted haccept
    · exact .idle
  | begin => rcases hdoes with ⟨-, -, rfl⟩ | ⟨-, rfl⟩ <;> constructor
  | commit base view =>
    rcases hdoes with ⟨hholder, ⟨db, hmerge, rfl⟩, -⟩ | ⟨-, rfl⟩
    · exact .committed hholder hmerge
    · exact .released
  | rollback =>
    cases hdoes
    exact .released

/-- Entries are only added. -/
theorem Changes.journal {call : AccountCall} (hchanges : Changes thread world call after) :
    world.journal <+ after.journal := by
  cases hchanges with
  | idle | released => exact List.Sublist.refl _
  | entered | admitted | began | committed => exact List.sublist_cons_self _ _

/-- A statement leaves what the tables say apart from sessions, or it commits a
transaction. -/
theorem Changes.db {call : AccountCall} (hchanges : Changes thread world call after) :
    (∃ refs sessions, after.db = { world.db with refs := refs, sessions := sessions }) ∨
    ∃ base, after.journal = .committed thread base after.db :: world.journal := by
  cases hchanges with
  | idle | released | entered | began => exact .inl ⟨_, _, rfl⟩
  | admitted haccept =>
    obtain ⟨refs, _, sessions, rfl, -⟩ := Directory.admitSession_ok haccept
    exact .inl ⟨_, _, rfl⟩
  | committed => exact .inr ⟨_, rfl⟩

/-- What a login has found survives every statement, or the journal tells. -/
theorem Grounded.does (hgood : Finding site.locale good)
    (hgrounded : Grounded good login subject mailboxID world) {call : AccountCall}
    {answer : call.Answer} (hdoes : world.Does site.locale thread call answer after) :
    Grounded good login subject mailboxID after := by
  obtain ⟨hentered, hfound⟩ := hgrounded
  have hchanges := does_changes hdoes
  have hjournal := hchanges.journal
  refine ⟨hjournal.subset hentered, ?_⟩
  rcases hfound with hfound | ⟨transaction, base, spoilt, horder, hbad⟩
  · rcases hchanges.db with ⟨refs, sessions, hdb⟩ | ⟨base, hcommitted⟩
    · rw [hdb]
      exact .inl (hgood.kept refs sessions hfound)
    · by_cases hafter : good after.db subject mailboxID
      · exact .inl hafter
      · exact .inr ⟨thread, base, after.db, hcommitted ▸ pair_sublist hentered, hafter⟩
  · exact .inr ⟨transaction, base, spoilt, horder.trans hjournal, hbad⟩

section Programs

variable (site good jobs login) in
/-- What one thread has to reckon with. -/
abbrev amongAccounts : Setting accountInterface (Moment accountInterface AccountWorld) :=
  (accountMachine site.locale).setting (accountAllowed site good jobs) login

/-- A fact about worlds that no statement destroys is stable. -/
theorem stable_of_does {fact : AccountWorld → Prop}
    (hfact : ∀ {world after : AccountWorld} {thread : Thread} {call : AccountCall}
      {answer : call.Answer}, fact world →
      world.Does site.locale thread call answer after → fact after)
    (hrelease : ∀ {world : AccountWorld} {thread : Thread}, fact world →
      fact (world.release thread)) :
    (amongAccounts site good jobs login).Stable fun state => fact state.world := by
  rintro state after hstate ⟨other, -, ⟨action, answer, -, hacts⟩ | rfl⟩
  · exact hfact hstate hacts.1
  · exact hrelease hstate

theorem grounded_stable (hgood : Finding site.locale good) :
    (amongAccounts site good jobs login).Stable fun state =>
      Grounded good login subject mailboxID state.world :=
  stable_of_does (fun hgrounded hdoes => hgrounded.does hgood hdoes) id

theorem entered_stable :
    (amongAccounts site good jobs login).Stable fun state => .entered login ∈ state.world.journal :=
  stable_of_does (fun hentered hdoes => (does_changes hdoes).journal.subset hentered) id

theorem onlyCandidate_ok {candidates : List LoginCandidate}
    {candidate : LoginCandidate} (hok : onlyCandidate candidates = .ok candidate) :
    candidate ∈ candidates := by
  unfold onlyCandidate at hok
  split at hok
  · cases hok
    exact List.mem_cons_self
  · cases hok

theorem outcome_stable {α : Type} {post : α → Moment accountInterface AccountWorld → Prop}
    (hpost : ∀ value, (amongAccounts site good jobs login).Stable (post value))
    (answer : Except Error α) :
    (amongAccounts site good jobs login).Stable (Setting.Outcome post (fun _ => True) answer) := by
  cases answer with
  | error reason => exact Setting.Stable.const True
  | ok value => exact hpost value

theorem enter_known : (amongAccounts site good jobs login).Attempts (fun _ => True)
    (Task.attempt (askAccounts .enter))
    (fun _ state => .entered login ∈ state.world.journal) fun _ => True := by
  refine Setting.Triple.perform (fun _ _ => trivial) ?_ (outcome_stable fun _ => entered_stable)
  rintro state answer after - ⟨hdoes, -⟩
  rcases hdoes with ⟨rfl, hafter⟩ | ⟨rfl, -⟩
  · change _ ∈ after.world.journal
    rw [hafter]
    exact List.mem_cons_self
  · trivial

/-- Every candidate is a finding. -/
theorem resolve_known (hgood : Finding site.locale good) :
    (amongAccounts site good jobs login).Attempts
      (fun state => .entered login ∈ state.world.journal)
      (Task.attempt (askAccounts (.resolve subject)))
      (fun candidates state => ∀ candidate ∈ candidates,
        Grounded good login subject candidate.mailboxID state.world)
      fun _ => True := by
  refine Setting.Triple.perform (fun _ _ => trivial) ?_ (outcome_stable ?_)
  · rintro state answer after hentered ⟨⟨hafter, rfl | rfl⟩, -⟩
    · intro candidate hcandidate
      rw [hafter]
      exact ⟨hentered, .inl (hgood.found hcandidate)⟩
    · trivial
  · intro candidates state after hstate hrely candidate hcandidate
    exact grounded_stable hgood state after (hstate candidate hcandidate) hrely

/-- A login is admitted at a mailbox that it has found. -/
theorem putIdentitySession_safe (hgood : Finding site.locale good)
    (identity : OidcIdentity) (session : Session) :
    (amongAccounts site good jobs login).Obeys (fun _ => True)
      (putIdentitySession site.platform identity session) := by
  apply Setting.Attempts.of_bind
  intro _ _
  apply Setting.Attempts.bind enter_known
  intro _
  apply Setting.Attempts.bind (resolve_known hgood)
  intro candidates
  apply Setting.Attempts.of_bind
  intro candidate hcandidate
  apply Setting.Attempts.of_bind
  intro _ _
  have hrandom : (amongAccounts site good jobs login).Attempts
      (fun state => ∀ candidate ∈ candidates,
        Grounded good login identity.subject candidate.mailboxID state.world)
      (Task.attempt (askAccounts .randomUUID))
      (fun _ state => Grounded good login identity.subject candidate.mailboxID
        state.world) fun _ => True := by
    refine Setting.Triple.perform (fun _ _ => trivial) ?_
      (outcome_stable fun _ => grounded_stable hgood)
    rintro state answer after hfound ⟨hafter, -⟩
    cases answer with
    | error reason => trivial
    | ok id =>
      change Grounded _ _ _ _ after.world
      rw [show after.world = state.world from hafter]
      exact hfound candidate (onlyCandidate_ok hcandidate)
  apply Setting.Attempts.bind hrandom
  intro identityID
  refine Setting.Triple.perform (fun _ hgrounded => hgrounded) ?_
    (outcome_stable fun _ => Setting.Stable.const True)
  rintro state answer after - -
  cases answer <;> trivial

/-- A SCIM transaction commits what its batch has made of its snapshot. -/
theorem transactBatch_safe {batch : ScimBatch} (hjob : jobs login = .provision batch) :
    (amongAccounts site good jobs login).Obeys (fun _ => True) (transactBatch site batch) := by
  have hany : ∀ {α : Type} (answer : Except Error α) (state : Moment accountInterface AccountWorld),
      Setting.Outcome (fun _ _ => True) (fun _ => True) answer state := by
    intro α answer state
    cases answer <;> trivial
  have hbegin : (amongAccounts site good jobs login).Obeys (fun _ => True)
      (Task.attempt (askAccounts .begin)) :=
    Setting.Triple.perform (fun _ _ => trivial) (fun _ _ => hany _ _)
      (outcome_stable fun _ => Setting.Stable.const True)
  apply Setting.Attempts.bind hbegin
  intro base
  split
  · refine Setting.Attempts.bind (Setting.Attempts.observe (Setting.Triple.perform
      (fun _ _ => trivial) (fun _ _ => trivial) fun _ => Setting.Stable.const True)) fun _ => ?_
    exact fun _ _ => trivial
  · next view hview =>
      exact Setting.Triple.perform (fun _ _ => ⟨batch, hjob, hview⟩)
        (fun _ _ => hany _ _) (outcome_stable fun _ => Setting.Stable.const True)

end Programs

/-- Every call of the jobs is allowed. -/
theorem accounts_sound (hgood : Finding site.locale good)
    (jobs : Thread → AccountJob) (start : Directory) :
    (accountMachine site.locale).Sound (accountAllowed site good jobs)
      ⟨⟨.fresh start, []⟩, fun thread => some ((jobs thread).program site)⟩ := by
  intro thread program hprogram later hsteps
  cases hprogram
  cases hjob : jobs thread with
  | login identity session =>
    exact Setting.Triple.bind (putIdentitySession_safe hgood identity session)
      (fun _ => Setting.Triple.pure fun _ _ => trivial) later trivial
  | provision batch =>
    exact Setting.Triple.bind (transactBatch_safe hjob)
      (fun _ => Setting.Triple.pure fun _ _ => trivial) later trivial

section Tracking

variable {transaction : Thread} {base : Directory} {session : Session}

theorem Advances.grown (hadvances : Advances transaction base world)
    (hjournal : world.journal <+ after.journal) (hdb : after.db = world.db) :
    Advances transaction base after := by
  obtain ⟨hbegan, halike, hrefs, hsessions, hnewRefs, hnewSessions⟩ := hadvances
  refine ⟨hjournal.subset hbegan, by rwa [hdb], by rwa [hdb], by rwa [hdb], ?_, ?_⟩
  · intro ref href
    rw [hdb] at href
    refine (hnewRefs ref href).imp_right ?_
    rintro ⟨login, mailboxID, session, hmailbox, hsince⟩
    exact ⟨login, mailboxID, session, hmailbox, hsince.mono hjournal⟩
  · intro row hrow
    rw [hdb] at hrow ⊢
    refine (hnewSessions row hrow).imp_right ?_
    rintro ⟨login, subject, mailboxID, session, hsession, href, hsince⟩
    exact ⟨login, subject, mailboxID, session, hsession, href, hsince.mono hjournal⟩

/-- A login that is admitted is on record. -/
theorem Advances.admitLogin {db : Directory} (hadvances : Advances transaction base world)
    (hentered : .entered login ∈ world.journal)
    (hadmits : Directory.Admits subject mailboxID session world.db db) :
    Advances transaction base (world.admitLogin login subject mailboxID session db) := by
  obtain ⟨hbegan, ⟨_, _, halike⟩, hrefs, hsessions, hnewRefs, hnewSessions⟩ := hadvances
  obtain ⟨refs, ref, sessions, rfl, hrows, href, hid, -, hsubject, hmailbox, hadded⟩ := hadmits
  have hgrown : world.journal <+ .admitted login subject mailboxID session :: world.journal :=
    List.sublist_cons_self _ _
  have hsince : Since transaction login subject mailboxID session
      (.admitted login subject mailboxID session :: world.journal) :=
    ⟨pair_sublist hbegan, List.mem_cons_of_mem _ hentered⟩
  have hsubset : ∀ other ∈ world.db.refs.rows, other ∈ refs.rows := by
    intro other hother
    rcases hadded with rfl | hadded
    · exact hother
    · simp [hadded, hother]
  refine ⟨hgrown.subset hbegan, ⟨refs, sessions, ?_⟩, ?_, ?_, ?_, ?_⟩
  · change { world.db with refs := refs, sessions := sessions } = _
    rw [halike]
  · exact fun other hother => hsubset other (hrefs other hother)
  · intro row hrow
    change row ∈ sessions.rows
    simp [hrows, hsessions row hrow]
  · intro other hother
    have hother : other ∈ world.db.refs.rows ∨ other = ref := by
      rcases hadded with rfl | hadded
      · exact .inl hother
      · change other ∈ refs.rows at hother
        simpa [hadded] using hother
    rcases hother with hother | rfl
    · refine (hnewRefs other hother).imp_right ?_
      rintro ⟨login, mailboxID, session, hbound, hbefore⟩
      exact ⟨login, mailboxID, session, hbound, hbefore.mono hgrown⟩
    · exact .inr ⟨login, mailboxID, session, hmailbox, hsubject ▸ hsince⟩
  · intro row hrow
    change row ∈ sessions.rows at hrow
    rw [hrows, List.mem_append, List.mem_singleton] at hrow
    rcases hrow with hrow | rfl
    · refine (hnewSessions row hrow).imp_right ?_
      rintro ⟨login, subject, mailboxID, session, hsession, ⟨other, hother, hbound⟩, hbefore⟩
      exact ⟨login, subject, mailboxID, session, hsession,
        ⟨other, hsubset other hother, hbound⟩, hbefore.mono hgrown⟩
    · exact .inr ⟨login, subject, mailboxID, session, rfl, ⟨ref, href, hid, hmailbox⟩, hsince⟩

theorem Tracks.release (htracks : Tracks world) (thread : Thread) :
    Tracks (world.release thread) := by
  refine ⟨htracks.began, htracks.entered, ?_⟩
  intro transaction base hholder
  have hholder := (Option.filter_eq_some_iff.mp hholder).1
  exact (htracks.advances hholder).grown (List.Sublist.refl _) rfl

/-- An entry that is neither an admission nor a commit. -/
theorem Tracks.note (htracks : Tracks world) {entry : AccountEntry}
    (hjournal : after.journal = entry :: world.journal)
    (hentry : (∃ login, entry = .entered login) ∨ ∃ transaction, entry = .began transaction)
    (hadvances : ∀ {transaction base}, after.holder = some (transaction, base) →
      Advances transaction base after) : Tracks after := by
  refine ⟨?_, ?_, hadvances⟩
  · intro transaction base db hcommitted
    rw [hjournal, List.mem_cons] at hcommitted
    rw [hjournal]
    rcases hcommitted with rfl | hcommitted
    · simp at hentry
    · exact List.mem_cons_of_mem _ (htracks.began hcommitted)
  · intro login subject mailboxID session hadmitted
    rw [hjournal, List.mem_cons] at hadmitted
    rw [hjournal]
    rcases hadmitted with rfl | hadmitted
    · simp at hentry
    · exact List.mem_cons_of_mem _ (htracks.entered hadmitted)

/-- Every statement is accounted for. -/
theorem Tracks.acts {state next : Moment accountInterface AccountWorld}
    (htracks : Tracks state.world) {call : AccountCall} {answer : call.Answer}
    (hallowed : accountAllowed site good jobs thread state call)
    (hacts : (accountMachine site.locale).Acts thread state call answer next) :
    Tracks next.world := by
  have hchanges := does_changes hacts.1
  generalize next.world = after at hchanges
  cases hchanges with
  | idle => exact htracks
  | released => exact htracks.release thread
  | entered =>
    exact htracks.note rfl (.inl ⟨_, rfl⟩) fun hholder =>
      (htracks.advances hholder).grown (List.sublist_cons_self _ _) rfl
  | admitted haccept =>
    refine ⟨?_, ?_, fun hholder => (htracks.advances hholder).admitLogin
      hallowed.1 (Directory.admitSession_ok haccept)⟩
    · intro transaction base after hcommitted
      rcases List.mem_cons.mp hcommitted with hsame | hcommitted
      · cases hsame
      · exact List.mem_cons_of_mem _ (htracks.began hcommitted)
    · intro login subject mailboxID session hadmitted
      rcases List.mem_cons.mp hadmitted with hsame | hadmitted
      · cases hsame
        exact List.mem_cons_of_mem _ hallowed.1
      · exact List.mem_cons_of_mem _ (htracks.entered hadmitted)
  | began =>
    refine htracks.note rfl (.inr ⟨_, rfl⟩) ?_
    intro transaction base hholder
    cases hholder
    exact ⟨List.mem_cons_self, ⟨_, _, rfl⟩, fun _ href => href,
      fun _ hrow => hrow, fun _ href => .inl href, fun _ hrow => .inl hrow⟩
  | committed hholder =>
    refine ⟨?_, ?_, fun hholder => absurd hholder nofun⟩
    · intro transaction base after hcommitted
      rcases List.mem_cons.mp hcommitted with hsame | hcommitted
      · cases hsame
        exact List.mem_cons_of_mem _ (htracks.advances hholder).began
      · exact List.mem_cons_of_mem _ (htracks.began hcommitted)
    · intro login subject mailboxID session hadmitted
      rcases List.mem_cons.mp hadmitted with hsame | hadmitted
      · cases hsame
      · exact List.mem_cons_of_mem _ (htracks.entered hadmitted)

theorem tracks_fresh (start : Directory) : Tracks (.fresh start) :=
  ⟨fun hcommitted => absurd hcommitted List.not_mem_nil,
    fun hadmitted => absurd hadmitted List.not_mem_nil, fun hholder => nomatch hholder⟩

/-- Without an overlap a login is admitted where its finding still holds. -/
theorem Tracks.admitted_good (htracks : Tracks world)
    (hgrounded : Grounded good login subject mailboxID world) (hapart : ¬ Overlaps good
      (.admitted login subject mailboxID session :: world.journal)) :
    good world.db subject mailboxID := by
  obtain ⟨hentered, hgood | ⟨transaction, base, after, horder, hbad⟩⟩ := hgrounded
  · exact hgood
  · have hbegan := htracks.began (horder.subset List.mem_cons_self)
    exact absurd ⟨login, transaction, base, after, subject, mailboxID, session,
      horder.cons _, pair_sublist hbegan, hbad⟩ hapart

/-- Without an overlap a transaction spoils nothing that was admitted since it
began. -/
theorem Since.committed_good {journal : List AccountEntry} {base db : Directory}
    (hsince : Since transaction login subject mailboxID session journal)
    (hapart : ¬ Overlaps good (.committed transaction base db :: journal)) :
    good db subject mailboxID := by
  by_contra hbad
  exact hapart ⟨login, transaction, base, db, subject, mailboxID, session,
    pair_sublist hsince.2, hsince.1.cons _, hbad⟩

/-- What every statement keeps in runs without overlaps holds in all of them. -/
theorem accounts_invariant {fact : AccountWorld → Prop} (hgood : Finding site.locale good)
    (hacts : ∀ {thread : Thread} {state next : Moment accountInterface AccountWorld}
      {call : AccountCall} {answer : call.Answer}, fact state.world →
      Tracks state.world → accountAllowed site good jobs thread state call →
      (accountMachine site.locale).Acts thread state call answer next →
      ¬ Overlaps good next.world.journal → fact next.world)
    (hrelease : ∀ {world : AccountWorld} (thread : Thread), fact world →
      fact (world.release thread))
    {start : Directory} (hstart : fact (.fresh start)) {pool : Pool accountInterface AccountWorld}
    (hreachable : (accountMachine site.locale).Reachable (.fresh start)
      (fun thread => (jobs thread).program site) pool)
    (hapart : ¬ Overlaps good pool.state.world.journal) : fact pool.state.world := by
  have hstep : ∀ {thread state call answer next}, (Tracks state.world ∧
        (¬ Overlaps good state.world.journal → fact state.world)) →
      accountAllowed site good jobs thread state call →
      (accountMachine site.locale).Acts thread state call answer next → Tracks next.world ∧
        (¬ Overlaps good next.world.journal → fact next.world) := by
    intro thread state call answer next hstate hallowed hact
    refine ⟨hstate.1.acts hallowed hact, fun happart => ?_⟩
    refine hacts (hstate.2 ?_) hstate.1 hallowed hact happart
    exact fun hoverlaps => happart (hoverlaps.mono (does_changes hact.1).journal)
  have hexit : ∀ {thread} {state : Moment accountInterface AccountWorld}, (Tracks state.world ∧
        (¬ Overlaps good state.world.journal → fact state.world)) →
      Tracks ((accountMachine site.locale).left thread state).world ∧
        (¬ Overlaps good ((accountMachine site.locale).left thread state).world.journal →
          fact ((accountMachine site.locale).left thread state).world) :=
    fun hstate => ⟨hstate.1.release _, fun happart => hrelease _ (hstate.2 happart)⟩
  exact (Machine.Reachable.invariant (accounts_sound hgood jobs start) hstep hexit
    ⟨tracks_fresh start, fun _ => hstart⟩ hreachable).2 hapart

end Tracking

end Runs

end GotthMail
