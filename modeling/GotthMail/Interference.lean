/-
What a call can do to what another thread knows.  A queue file that has been
registered keeps its identity and its children; only the hold protocol writes
its row, and policy stays as it is while a thread shares its tables.
-/
import GotthMail.HoldServices

namespace GotthMail

open Bytes Relational Calls

/-- What a call writes to the row of a queue file. -/
def Call.Writes (p : Platform) (queueID : Text) (row after : MessageRow) : Call → Prop
  | .requireHold mover decision => mover.queueID = queueID ∧ ∃ revisions,
      p.canonicalPolicyRevisions decision.revisions = .ok revisions ∧
        after = row.requireHold .policyHold revisions mover.now
  | .startReconciliation mover => mover.queueID = queueID ∧
      Database.reconcilable row.holdState = true ∧ after = row.start .reconciling mover.now
  | .finishReconciliation mover state code => mover.queueID = queueID ∧
      row.holdState = .reconciling ∧ (state = .applied ∨ state = .reconciliationError) ∧
        after = row.finish state (Database.errorCode code) mover.now
  | .startRelease mover => mover.queueID = queueID ∧ Database.releasable row.holdState = true ∧
        after = row.start .releaseReconciling mover.now
  | .finishRelease mover state code => mover.queueID = queueID ∧
      row.holdState = .releaseReconciling ∧ (state = .released ∨ state = .releaseError) ∧
        after = row.finish state (Database.errorCode code) mover.now
  | _ => False

structure Database.SameChildren (locale : Locale) (queueID : Text)
    (db next : Database) : Prop where
  recipients : next.queueRecipients locale queueID = db.queueRecipients locale queueID
  sources : next.queueSources locale queueID = db.queueSources locale queueID

/-- The tables that policy is read from are the same. -/
structure Database.SamePolicy (db next : Database) : Prop where
  domains : next.domains = db.domains
  mailboxes : next.mailboxes = db.mailboxes
  aliases : next.aliases = db.aliases
  systemSenders : next.systemSenders = db.systemSenders

variable {locale : Locale} {p : Platform} {db next : Database} {queueID : Text}
  {row after : MessageRow}

theorem Database.SameChildren.of_tables (hrecipients : next.recipients = db.recipients)
    (hsources : next.sources = db.sources) :
    Database.SameChildren locale queueID db next := by
  constructor
  · simp only [Database.queueRecipients, hrecipients]
  · simp only [Database.queueSources, hsources]

theorem Call.Writes.holdStep {call : Call}
    (hwrites : call.Writes p queueID row after) : HoldStep p row after := by
  cases call with
  | requireHold mover decision =>
    rcases hwrites with ⟨_, revisions, hrevisions, rfl⟩
    exact .requireHold hrevisions
  | startReconciliation mover =>
    rcases hwrites with ⟨_, hstate, rfl⟩
    exact .startReconciliation hstate
  | finishReconciliation mover state code =>
    rcases hwrites with ⟨_, hprior, hstate, rfl⟩
    exact .finishReconciliation hprior hstate
  | startRelease mover =>
    rcases hwrites with ⟨_, hstate, rfl⟩
    exact .startRelease hstate
  | finishRelease mover state code =>
    rcases hwrites with ⟨_, hprior, hstate, rfl⟩
    exact .finishRelease hprior hstate
  | _ => exact hwrites.elim

/-- Policy is resolved from its own tables. -/
theorem Database.SamePolicy.resolvePolicySources
    (hsame : db.SamePolicy next) (sources : List QueueSource) :
    p.resolvePolicySources next sources = p.resolvePolicySources db sources := by
  have hobject (source : QueueSource) :
      next.sourceObject source = db.sourceObject source := by
    simp only [Database.sourceObject, Database.mailboxObject,
      Database.aliasObject, Database.systemSenderObject, hsame.mailboxes,
      hsame.aliases, hsame.systemSenders]
  have hsource : p.resolveSource next = p.resolveSource db := by
    funext source
    simp only [Platform.resolveSource, Database.governingRow, hobject, hsame.domains]
  simp only [Platform.resolvePolicySources, hsource]

/-- A registration appends rows of a queue ID that was free. -/
theorem filter_append_other {ρ : Type} {queueIDOf : ρ → Text} {before added : List ρ}
    (hadded : ∀ row ∈ added, queueIDOf row ≠ queueID) :
    (before ++ added).filter (fun row => queueIDOf row = queueID) =
      before.filter fun row => queueIDOf row = queueID := by
  have hnone : added.filter (fun row => queueIDOf row = queueID) = [] := by
    rw [List.filter_eq_nil_iff]
    intro row hrow
    simpa using hadded row hrow
  rw [List.filter_append, hnone, List.append_nil]

theorem recipientRow_queueID {recipient : Text} {child : RecipientRow}
    (hchild : p.recipientRow queueID recipient = .ok child) : child.queueID = queueID := by
  simp only [Platform.recipientRow, bind_ok_iff, pure_ok_iff] at hchild
  rcases hchild with ⟨_, _, rfl⟩
  rfl

theorem insertQueue_keeps {record : QueueRecord} {now : Time} {created : Bool}
    (hinsert : Database.insertQueue locale p record now db = .ok (created, next))
    (hrow : db.messages.find? queueID = some row) :
    next.messages.find? queueID = some row ∧
      Database.SameChildren locale queueID db next := by
  simp only [Database.insertQueue, bind_ok_iff, checkSql_ok_iff] at hinsert
  rcases hinsert with ⟨_, _, hinsert⟩
  split at hinsert
  · cases hinsert
    exact ⟨hrow, rfl, rfl⟩
  · next messages hmessages =>
      have hinserted := Table.insert_eq_some_iff.mp hmessages
      have hother : record.queueID ≠ queueID := by
        intro hsame
        have habsent : db.messages.find? record.queueID = none := hinserted.1
        rw [hsame, hrow] at habsent
        cases habsent
      simp only [Database.copyQueueRecipients, Database.copyQueueSources,
        bind_ok_iff, checkSql_ok_iff, requireSql_ok_iff, pure_ok_iff, Prod.mk.injEq] at hinsert
      rcases hinsert with ⟨_, ⟨rows, hrows, _, _, recipients, hrecipients, rfl⟩,
        _, ⟨_, _, sources, hsources, rfl⟩, _, rfl⟩
      refine ⟨?_, ?_, ?_⟩
      · rw [Table.find?_eq_some_iff] at hrow ⊢
        refine ⟨?_, hrow.2⟩
        rw [hinserted.2]
        exact List.mem_append_left _ hrow.1
      · simp only [Database.queueRecipients]
        rw [Table.insertAll_eq_some hrecipients, filter_append_other]
        intro child hchild
        obtain ⟨_, _, hrecipient⟩ := mem_of_forall₂ (mapM_ok_iff_forall₂.mp hrows) hchild
        rw [recipientRow_queueID hrecipient]
        exact hother
      · simp only [Database.queueSources]
        rw [Table.insertAll_eq_some hsources, filter_append_other]
        intro child hchild
        rcases List.mem_map.mp hchild with ⟨source, _, rfl⟩
        exact hother

theorem insertQueue_samePolicy {record : QueueRecord} {now : Time} {created : Bool}
    (hinsert : Database.insertQueue locale p record now db =
      .ok (created, next)) : db.SamePolicy next := by
  simp only [Database.insertQueue, bind_ok_iff, checkSql_ok_iff] at hinsert
  rcases hinsert with ⟨_, _, hinsert⟩
  split at hinsert
  · cases hinsert
    exact ⟨rfl, rfl, rfl, rfl⟩
  · simp only [Database.copyQueueRecipients, Database.copyQueueSources,
      bind_ok_iff, checkSql_ok_iff, requireSql_ok_iff, pure_ok_iff, Prod.mk.injEq] at hinsert
    rcases hinsert with ⟨_, ⟨_, _, _, _, _, _, rfl⟩, _, ⟨_, _, _, _, rfl⟩, _, rfl⟩
    exact ⟨rfl, rfl, rfl, rfl⟩

/-- A call keeps the queue file: its children are the same, and its row is the
same or what the call writes. -/
structure Call.Keeps (locale : Locale) (p : Platform) (call : Call)
    (queueID : Text) (row : MessageRow) (db next : Database) : Prop where
  children : Database.SameChildren locale queueID db next
  message : ∃ after, next.messages.find? queueID = some after ∧ (after = row ∨
      call.Writes p queueID row after ∧ locale.messageChecks after = true)

variable {call : Call}

theorem Call.Keeps.same (hrow : next.messages.find? queueID = some row)
    (hchildren : Database.SameChildren locale queueID db next) :
    call.Keeps locale p queueID row db next :=
  ⟨hchildren, row, hrow, .inl rfl⟩

theorem Call.Keeps.refl (hrow : db.messages.find? queueID = some row) :
    call.Keeps locale p queueID row db db :=
  .same hrow ⟨rfl, rfl⟩

/-- A move of one queue file, seen from any queue file. -/
theorem Database.Moved.keeps {moved : Text} {before written : MessageRow}
    (hmoved : db.Moved next moved before written) (hwrites : call.Writes p moved before written)
    (hchecks : locale.messageChecks written = true) (hrow : db.messages.find? queueID = some row) :
    call.Keeps locale p queueID row db next := by
  have hchildren : Database.SameChildren locale queueID db next :=
    .of_tables hmoved.recipients hmoved.sources
  by_cases hsame : queueID = moved
  · subst hsame
    cases hrow.symm.trans hmoved.before
    exact ⟨hchildren, written, hmoved.now, .inr ⟨hwrites, hchecks⟩⟩
  · exact .same ((hmoved.others queueID hsame).trans hrow) hchildren

theorem Database.Moved.samePolicy {moved : Text} {before written : MessageRow}
    (hmoved : db.Moved next moved before written) : db.SamePolicy next :=
  ⟨hmoved.domains, hmoved.mailboxes, hmoved.aliases, hmoved.systemSenders⟩

/-- A transaction either changed nothing or did what its body does. -/
theorem World.Commits.cases {α : Type} {world later : World}
    {body : Database → Except Error (α × Database)} {answer : Except Error α}
    (hcommits : world.Commits body answer later) :
    later = world ∨ ∃ value next, body world.db = .ok (value, next) ∧
      later = { world with db := next } := by
  rcases hcommits with ⟨value, next, hbody, hlater, _⟩ | ⟨hlater, _⟩
  · exact .inr ⟨value, next, hbody, hlater⟩
  · exact .inl hlater

theorem registerTx_keeps {now : Time} {input : QueueRegistration} {value : QueueRecord × Bool}
    (hregister : Database.registerTx locale p now input db = .ok (value, next))
    (hrow : db.messages.find? queueID = some row) :
    call.Keeps locale p queueID row db next := by
  obtain ⟨record, _, hinsert, _⟩ := registerTx_ok_iff.mp hregister
  have hkeeps := insertQueue_keeps hinsert hrow
  exact .same hkeeps.1 hkeeps.2

theorem writeAudit_tables {event : AuditEvent} (hwrite : db.writeAudit event = .ok next) :
    next = { db with audit := db.audit ++ [event] } := by
  simp only [Database.writeAudit, bind_ok_iff, pure_ok_iff] at hwrite
  rcases hwrite with ⟨_, _, rfl⟩
  rfl

theorem auditTx_tables {event : AuditEvent} {u : Unit} (hwrite : db.auditTx event = .ok (u, next)) :
    next = { db with audit := db.audit ++ [event] } := by
  simp only [Database.auditTx, bind_ok_iff, pure_ok_iff, Prod.mk.injEq] at hwrite
  rcases hwrite with ⟨_, hwrite, _, rfl⟩
  exact writeAudit_tables hwrite

theorem applyChangeTx_queue {now : Time} {actor : ActorRef}
    {correlationID domain confirmation : Text} {requested : Scope} {result : ChangeResult}
    (happly : db.applyChangeTx locale p now actor correlationID domain requested
      confirmation = .ok (result, next)) :
    next.messages = db.messages ∧ next.recipients = db.recipients ∧
      next.sources = db.sources := by
  simp only [Database.applyChangeTx, bind_ok_iff] at happly
  rcases happly with ⟨_, _, plan, _, _, _, hrest⟩
  split at hrest
  · cases hrest
    exact ⟨rfl, rfl, rfl⟩
  · simp only [Database.updateScope, bind_ok_iff, pure_ok_iff, Prod.mk.injEq] at hrest
    rcases hrest with ⟨_, ⟨_, _, _, _, rfl⟩, _, hwrite, _, rfl⟩
    rw [writeAudit_tables hwrite]
    exact ⟨rfl, rfl, rfl⟩

section Calls

variable {thread other : Thread} {world later : World} {answer : call.Answer}

theorem Call.Keeps.of_commits {α : Type}
    {body : Database → Except Error (α × Database)} {result : Except Error α}
    (hcommits : world.Commits body result later) (hrow : world.db.messages.find? queueID = some row)
    (hbody : ∀ {value next}, body world.db = .ok (value, next) →
      call.Keeps locale p queueID row world.db next) :
    call.Keeps locale p queueID row world.db later.db := by
  rcases hcommits.cases with rfl | ⟨value, next, hok, rfl⟩
  · exact .refl hrow
  · exact hbody hok

/-- Whatever is called, a registered queue file stays registered. -/
theorem performs_keeps (hperforms : performs locale p thread world call answer later)
    (hrow : world.db.messages.find? queueID = some row) :
    call.Keeps locale p queueID row world.db later.db := by
  cases call with
  | clock | unlockQueue | endPolicy | inspect | hold | release =>
    subst hperforms
    exact .refl hrow
  | lockQueue =>
    rcases hperforms with ⟨_, _, rfl⟩ | ⟨rfl, _⟩ <;> exact .refl hrow
  | lockPolicy =>
    rcases hperforms with ⟨_, rfl⟩ | ⟨rfl, _⟩ <;> exact .refl hrow
  | readMessage | readRecipients | readSources | resolve | mailboxObject
  | systemSender =>
    rw [hperforms.1]
    exact .refl hrow
  | writeAudit event =>
    refine .of_commits hperforms hrow fun hbody => ?_
    rw [auditTx_tables hbody]
    exact .same hrow ⟨rfl, rfl⟩
  | register now input =>
    exact .of_commits hperforms hrow fun hbody => registerTx_keeps hbody hrow
  | requireHold mover decision =>
    refine .of_commits hperforms hrow fun hbody => ?_
    rcases requireHoldTx_ok hbody with
      ⟨rfl, _⟩ | ⟨before, revisions, hrevisions, hchecks, hmoved⟩
    · exact .refl hrow
    · exact hmoved.keeps ⟨rfl, revisions, hrevisions, rfl⟩ hchecks hrow
  | startReconciliation | startRelease =>
    refine .of_commits hperforms hrow fun hbody => ?_
    rcases moveQueue_ok hbody with ⟨before, hstate, hchecks, hmoved, _⟩
    exact hmoved.keeps ⟨rfl, hstate, rfl⟩ hchecks hrow
  | finishReconciliation | finishRelease =>
    refine .of_commits hperforms hrow fun hbody => ?_
    rcases finishQueue_ok hbody with ⟨hstate, before, hprior, hchecks, hmoved⟩
    exact hmoved.keeps ⟨rfl, hprior, hstate, rfl⟩ hchecks hrow
  | applyChange now request =>
    rcases hperforms with ⟨_, hcommits⟩ | ⟨rfl, _⟩
    · refine .of_commits hcommits hrow fun hbody => ?_
      rcases applyChangeTx_queue hbody with ⟨hmessages, hrecipients, hsources⟩
      exact .same (hmessages ▸ hrow) (.of_tables hrecipients hsources)
    · exact .refl hrow
  | mutate mutation =>
    rcases hperforms with ⟨_, hcommits⟩ | ⟨rfl, _⟩
    · refine .of_commits hcommits hrow fun hbody => ?_
      exact .same (mutation.messages hbody ▸ hrow)
        (.of_tables (mutation.recipients hbody) (mutation.sources hbody))
    · exact .refl hrow

theorem Database.SamePolicy.refl (db : Database) : db.SamePolicy db := ⟨rfl, rfl, rfl, rfl⟩

theorem Database.SamePolicy.of_commits {α : Type}
    {body : Database → Except Error (α × Database)} {result : Except Error α}
    (hcommits : world.Commits body result later)
    (hbody : ∀ {value next}, body world.db = .ok (value, next) → world.db.SamePolicy next) :
    world.db.SamePolicy later.db := by
  rcases hcommits.cases with rfl | ⟨value, next, hok, rfl⟩
  · exact .refl _
  · exact hbody hok

/-- Nobody writes the policy tables while a thread shares them. -/
theorem performs_samePolicy (hperforms : performs locale p thread world call answer later)
    (hshared : world.policyLocks other = true) : world.db.SamePolicy later.db := by
  have hwriter : ¬ world.Unshared := by
    intro hunshared
    rw [hunshared other] at hshared
    cases hshared
  cases call with
  | clock | unlockQueue | endPolicy | inspect | hold | release =>
    subst hperforms
    exact .refl _
  | lockQueue => rcases hperforms with ⟨_, _, rfl⟩ | ⟨rfl, _⟩ <;> exact .refl _
  | lockPolicy => rcases hperforms with ⟨_, rfl⟩ | ⟨rfl, _⟩ <;> exact .refl _
  | readMessage | readRecipients | readSources | resolve | mailboxObject
  | systemSender =>
    rw [hperforms.1]
    exact .refl _
  | writeAudit event =>
    refine .of_commits hperforms fun hbody => ?_
    rw [auditTx_tables hbody]
    exact ⟨rfl, rfl, rfl, rfl⟩
  | register now input =>
    refine .of_commits hperforms fun hbody => ?_
    obtain ⟨record, _, hinsert, _⟩ := registerTx_ok_iff.mp hbody
    exact insertQueue_samePolicy hinsert
  | requireHold mover decision =>
    refine .of_commits hperforms fun hbody => ?_
    rcases requireHoldTx_ok hbody with ⟨rfl, _⟩ | ⟨_, _, _, _, hmoved⟩
    · exact .refl _
    · exact hmoved.samePolicy
  | startReconciliation | startRelease =>
    refine .of_commits hperforms fun hbody => ?_
    rcases moveQueue_ok hbody with ⟨_, _, _, hmoved, _⟩
    exact hmoved.samePolicy
  | finishReconciliation | finishRelease =>
    refine .of_commits hperforms fun hbody => ?_
    rcases finishQueue_ok hbody with ⟨_, _, _, _, hmoved⟩
    exact hmoved.samePolicy
  | applyChange | mutate =>
    rcases hperforms with ⟨hunshared, _⟩ | ⟨rfl, _⟩
    · exact absurd hunshared hwriter
    · exact .refl _

/-- The lock that a call takes or gives back, if any. -/
theorem performs_locks (hperforms : performs locale p thread world call answer later) :
    (later.queueLocks = world.queueLocks ∨ ∃ key,
      call = .lockQueue key ∧ world.queueLocks key = none ∧
        later.queueLocks = Function.update world.queueLocks key (some thread) ∨
      call = .unlockQueue key ∧ world.queueLocks key = some thread ∧
        later.queueLocks = Function.update world.queueLocks key none) ∧
    (later.policyLocks = world.policyLocks ∨
      later.policyLocks = Function.update world.policyLocks thread true ∨
      call = .endPolicy ∧ later.policyLocks = Function.update world.policyLocks thread false) := by
  have hcommits {α : Type} {body : Database → Except Error (α × Database)}
      {result : Except Error α} (hbody : world.Commits body result later) :
      later.queueLocks = world.queueLocks ∧ later.policyLocks = world.policyLocks := by
    rcases hbody.cases with rfl | ⟨_, next, _, rfl⟩ <;> exact ⟨rfl, rfl⟩
  cases call with
  | clock | inspect | hold | release =>
    rw [show later = world from hperforms]
    exact ⟨.inl rfl, .inl rfl⟩
  | endPolicy =>
    rw [hperforms]
    exact ⟨.inl rfl, .inr (.inr ⟨rfl, rfl⟩)⟩
  | lockQueue wanted =>
    rcases hperforms with ⟨_, hfree, rfl⟩ | ⟨rfl, _⟩
    · exact ⟨.inr ⟨wanted, .inl ⟨rfl, hfree, rfl⟩⟩, .inl rfl⟩
    · exact ⟨.inl rfl, .inl rfl⟩
  | unlockQueue wanted =>
    rw [hperforms]
    refine ⟨?_, .inl rfl⟩
    split
    · next hheld => exact .inr ⟨wanted, .inr ⟨rfl, hheld, rfl⟩⟩
    · exact .inl rfl
  | lockPolicy =>
    rcases hperforms with ⟨_, rfl⟩ | ⟨rfl, _⟩
    · exact ⟨.inl rfl, .inr (.inl rfl)⟩
    · exact ⟨.inl rfl, .inl rfl⟩
  | readMessage | readRecipients | readSources | resolve | mailboxObject | systemSender =>
    rw [hperforms.1]
    exact ⟨.inl rfl, .inl rfl⟩
  | applyChange | mutate =>
    rcases hperforms with ⟨_, hbody⟩ | ⟨rfl, _⟩
    · exact (hcommits hbody).imp .inl .inl
    · exact ⟨.inl rfl, .inl rfl⟩
  | _ => exact (hcommits hperforms).imp .inl .inl

/-- An advisory lock stays with its holder until the holder gives it back. -/
theorem performs_queueLocks {key : Int}
    (hperforms : performs locale p thread world call answer later)
    (hlock : world.queueLocks key = some other) (hcall : thread ≠ other ∨ call ≠ .unlockQueue key) :
    later.queueLocks key = some other := by
  rcases (performs_locks hperforms).1 with
    hsame | ⟨wanted, ⟨rfl, hfree, hnext⟩ | ⟨rfl, hheld, hnext⟩⟩
  · rw [hsame, hlock]
  · rw [hnext, Function.update_of_ne, hlock]
    rintro rfl
    cases hlock.symm.trans hfree
  · rw [hnext, Function.update_of_ne, hlock]
    rintro rfl
    cases hlock.symm.trans hheld
    exact hcall.elim (fun h => h rfl) fun h => h rfl

/-- A share of the policy tables lasts until its transaction ends. -/
theorem performs_policyLocks (hperforms : performs locale p thread world call answer later)
    (hshared : world.policyLocks other = true) (hcall : thread ≠ other ∨ call ≠ .endPolicy) :
    later.policyLocks other = true := by
  rcases (performs_locks hperforms).2 with hsame | hnext | ⟨rfl, hnext⟩
  · rw [hsame, hshared]
  · rw [hnext, Function.update_apply]
    split <;> trivial
  · rw [hnext, Function.update_of_ne, hshared]
    rintro rfl
    exact hcall.elim (fun h => h rfl) fun h => h rfl

end Calls

end GotthMail
