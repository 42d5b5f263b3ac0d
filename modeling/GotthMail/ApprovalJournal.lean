/-
What the committed transactions of an approval can be.  Each of them is an
insertion, a move of one row along the states of an approval, or an event
only; and each was made by a request that had read what it relies on.
-/
import GotthMail.ApprovalServices

namespace GotthMail

open Bytes Relational Calls

/-- How a transaction moves the row of an approval. -/
inductive ApprovalMove (s : Precision) :
    ApprovalTransaction → Text → ApprovalProgress → ApprovalProgress → Prop
  | activate {id : Text} {before : ApprovalProgress} (hstate : before.result = .creating) :
      ApprovalMove s (.activate id) id before before.activated
  | claim {read : ApprovalRow} {confirmation : ApprovalConfirmation}
      {lease : Time} {before : ApprovalProgress} (hclaimable :
        before.claimable (s.round (confirmation.now - lease)) = true) :
      ApprovalMove s (.claim read confirmation lease) read.id before
        (before.claimed (s.round confirmation.now))
  | complete {id : Text} {now : Time} {before : ApprovalProgress}
      (hstate : before.result = .executing) :
      ApprovalMove s (.complete id now) id before (before.completed (s.round now))
  | retry {id code : Text} {before : ApprovalProgress} (hstate : before.result = .executing) :
      ApprovalMove s (.retry id code) id before (before.retried code)
  | invalidate {read : ApprovalRow} {reason : Text} {before : ApprovalProgress}
      (hstate : before.result = .creating ∨ before.result = .pending) :
      ApprovalMove s (.invalidate read reason) read.id before (before.closed .rejected)
  | expire {attempt : ApprovalRow} {message : String} {before : ApprovalProgress}
      (hstate : before.result = .pending ∨ before.result = .executing) :
      ApprovalMove s (.deny attempt message true) attempt.id before (before.closed .expired)

inductive EventOnly : ApprovalTransaction → Prop
  | deny {attempt : ApprovalRow} {message : String} : EventOnly (.deny attempt message false)
  | writeAudit {event : ApprovalEvent} : EventOnly (.writeAudit event)

/-- The rows after a change of one of them. -/
def ApprovalStore.Sets (store next : ApprovalStore) (id : Text) (row : ApprovalRow) : Prop :=
  ∀ other, next.approvals.find? other = if other = id then some row else store.approvals.find? other

/-- What a committed transaction did. -/
inductive Applied (s : Precision) (store next : ApprovalStore) :
    ApprovalTransaction → Prop
  | create {request : ApprovalRequest} {now : Time}
      (hfresh : store.approvals.find? request.id = none)
      (hsets : store.Sets next request.id ⟨request.stored s now, {}⟩) :
      Applied s store next (.create request now)
  | move {transaction : ApprovalTransaction} {id : Text} {row : ApprovalRow}
      {after : ApprovalProgress} (hrow : store.approvals.find? id = some row)
      (hmove : ApprovalMove s transaction id row.progress after)
      (hsets : store.Sets next id { row with progress := after }) : Applied s store next transaction
  | event {transaction : ApprovalTransaction} (hevent : EventOnly transaction)
      (hrows : next.approvals = store.approvals) : Applied s store next transaction

section Inversion

variable {s : Precision} {p : Platform} {store next : ApprovalStore}

theorem writeAudit_ok {event : ApprovalEvent} (hwrite : store.writeAudit event = .ok next) :
    next.approvals = store.approvals := by
  simp only [ApprovalStore.writeAudit, bind_ok_iff, checkSql_ok_iff, pure_ok_iff] at hwrite
  obtain ⟨_, _, rfl⟩ := hwrite
  rfl

theorem map_ok {α β : Type} {f : α → β} {first : Except Error α} {result : β}
    (hmap : f <$> first = .ok result) : ∃ value, first = .ok value ∧ f value = result := by
  cases first with
  | error reason => cases hmap
  | ok value => exact ⟨value, rfl, Except.ok.inj hmap⟩

theorem updateApproval_ok {id : Text} {guard : ApprovalProgress → Bool}
    {change : ApprovalProgress → ApprovalProgress} {rejected : String} {binding : ApprovalBinding}
    (hupdate : store.updateApproval id guard change rejected = .ok (binding, next)) :
    ∃ row, store.approvals.find? id = some row ∧ guard row.progress = true ∧
      store.Sets next id { row with progress := change row.progress } := by
  simp only [ApprovalStore.updateApproval, bind_ok_iff, checkSql_ok_iff,
    require_ok_iff, pure_ok_iff, Prod.mk.injEq] at hupdate
  obtain ⟨_, _, row, hhead, _, rfl⟩ := hupdate
  rw [Table.matching_eq] at hhead
  cases hfind : store.approvals.find? id with
  | none => simp [hfind] at hhead
  | some found =>
    simp only [hfind, Option.filter] at hhead
    split at hhead
    · next hguard =>
        cases hhead
        refine ⟨row, rfl, hguard, ?_⟩
        intro other
        have hupdated := Table.find?_update store.approvals
          (fun row => decide (row.id = id) && guard row.progress)
          (fun row => { row with progress := change row.progress }) (fun _ => rfl) other
        refine hupdated.trans ?_
        by_cases hother : other = id
        · subst hother
          have hid : row.id = other := Table.find?_key hfind
          simp [hfind, hid, hguard]
        · rw [if_neg hother]
          cases hrow : store.approvals.find? other with
          | none => rfl
          | some elsewhere =>
            have hid : elsewhere.id = other := Table.find?_key hrow
            simp [hid, hother]
    · cases hhead

/-- An update and then its event. -/
theorem updateApproval_event {changed : ApprovalStore} {id : Text} {guard : ApprovalProgress → Bool}
    {change : ApprovalProgress → ApprovalProgress} {rejected : String}
    {binding : ApprovalBinding} {event : ApprovalEvent}
    (hupdate : store.updateApproval id guard change rejected =
      .ok (binding, changed)) (hwrite : changed.writeAudit event = .ok next) :
    ∃ row, store.approvals.find? id = some row ∧ guard row.progress = true ∧
      store.Sets next id { row with progress := change row.progress } := by
  obtain ⟨row, hrow, hguard, hsets⟩ := updateApproval_ok hupdate
  refine ⟨row, hrow, hguard, ?_⟩
  intro other
  rw [writeAudit_ok hwrite, hsets other]

/-- Every committed transaction is one of these. -/
theorem apply_ok {transaction : ApprovalTransaction}
    (happly : ApprovalStore.apply s p transaction store = .ok next) :
    Applied s store next transaction := by
  cases transaction with
  | create request now =>
    simp only [ApprovalStore.apply, ApprovalStore.createTx, bind_ok_iff,
      checkSql_ok_iff, requireSql_ok_iff] at happly
    obtain ⟨_, _, approvals, hinsert, hwrite⟩ := happly
    refine .create (Table.insert_eq_some_iff.mp hinsert).1 ?_
    intro other
    rw [writeAudit_ok hwrite]
    exact Table.find?_insert hinsert other
  | activate id =>
    obtain ⟨_, hupdate, hwrite⟩ := bind_ok_iff.mp happly
    obtain ⟨row, hrow, hguard, hsets⟩ := updateApproval_event hupdate hwrite
    simp only [Bool.and_eq_true, beq_iff_eq] at hguard
    exact .move hrow (.activate hguard.1) hsets
  | claim read confirmation lease =>
    obtain ⟨_, hupdate, hwrite⟩ := bind_ok_iff.mp happly
    obtain ⟨row, hrow, hguard, hsets⟩ := updateApproval_event hupdate hwrite
    exact .move hrow (.claim hguard) hsets
  | complete id now =>
    obtain ⟨_, hupdate, hwrite⟩ := bind_ok_iff.mp happly
    obtain ⟨row, hrow, hguard, hsets⟩ := updateApproval_event hupdate hwrite
    simp only [ApprovalProgress.executing, Bool.and_eq_true, beq_iff_eq] at hguard
    exact .move hrow (.complete hguard.2) hsets
  | retry id code =>
    obtain ⟨_, hupdate, hwrite⟩ := bind_ok_iff.mp happly
    obtain ⟨row, hrow, hguard, hsets⟩ := updateApproval_event hupdate hwrite
    simp only [ApprovalProgress.executing, Bool.and_eq_true, beq_iff_eq] at hguard
    exact .move hrow (.retry hguard.2) hsets
  | invalidate read reason =>
    obtain ⟨_, hupdate, hwrite⟩ := bind_ok_iff.mp happly
    obtain ⟨row, hrow, hguard, hsets⟩ := updateApproval_event hupdate hwrite
    simp only [Bool.or_eq_true, beq_iff_eq] at hguard
    exact .move hrow (.invalidate hguard) hsets
  | deny attempt message terminal =>
    cases terminal with
    | false => exact .event .deny (writeAudit_ok happly)
    | true =>
      obtain ⟨changed, hchanged, hwrite⟩ := bind_ok_iff.mp happly
      obtain ⟨⟨binding, _⟩, hupdate, rfl⟩ := map_ok hchanged
      obtain ⟨row, hrow, hguard, hsets⟩ := updateApproval_event hupdate hwrite
      simp only [Bool.or_eq_true, beq_iff_eq] at hguard
      exact .move hrow (.expire hguard) hsets
  | writeAudit event => exact .event .writeAudit (writeAudit_ok happly)

end Inversion

/-- The store once the transactions of a journal have been committed. -/
def storeAt (start : ApprovalStore) : List Commit → ApprovalStore
  | [] => start
  | newest :: _ => newest.store

def rowAt (start : ApprovalStore) (journal : List Commit) (id : Text) :
    Option ApprovalRow :=
  (storeAt start journal).approvals.find? id

/-- The row was there at some point of the journal. -/
def Seen (start : ApprovalStore) (journal : List Commit) (row : ApprovalRow) :
    Prop :=
  ∃ older, older <:+ journal ∧ rowAt start older row.id = some row

/-- The thread has committed nothing. -/
def Silent (thread : Thread) (journal : List Commit) : Prop :=
  ∀ commit ∈ journal, commit.thread ≠ thread

/-- The thread has committed one transaction and nothing else. -/
def Did (thread : Thread) (transaction : ApprovalTransaction) (journal : List Commit) : Prop :=
  (∃ commit ∈ journal, commit.thread = thread ∧ commit.transaction = transaction) ∧
    ∀ commit ∈ journal, commit.thread = thread → commit.transaction = transaction

section Permits

variable (p : Platform) (clock : Time → Time → Prop)
  (jobs : Thread → ApprovalJob) (start : ApprovalStore)

/-- The confirmations that a job presents; an executor has read the clock
before. -/
inductive Presents (thread : Thread) (time : Time)
    (confirmation : ApprovalConfirmation) (lease : Time) : Prop
  | claim (hjob : jobs thread = .claim confirmation lease)
  | execute {executor : ApprovalExecutor} {bindingToken : Text}
      {actor : TransportActor} {read : Time} (hjob : jobs thread =
        .execute executor confirmation.id bindingToken actor)
      (hlease : lease = executor.leaseTime) (hread : read ≤ time)
      (hclock : clock read confirmation.now)

/-- The thread executes an approval that it has claimed, and has not ended that yet. -/
def Executes (thread : Thread) (id : Text) (journal : List Commit) : Prop :=
  (∃ executor bindingToken actor, jobs thread = .execute executor id bindingToken actor) ∧
  ∃ read confirmation lease, read.id = id ∧ Did thread (.claim read confirmation lease) journal

/-- What holds whenever a thread asks for a transaction. -/
inductive Permitted (journal : List Commit) (thread : Thread) (time : Time) :
    ApprovalTransaction → Prop
  | create {raw request : ApprovalRequest} {now : Time}
      (hsilent : Silent thread journal) (hjob : jobs thread = .create raw now)
      (htoken : validBindingToken request.bindingToken = true)
      (hrequest : request = { p.canonicalRequest raw with
        id := request.id, bindingToken := request.bindingToken }) :
      Permitted journal thread time (.create request now)
  | activate {id : Text} (hsilent : Silent thread journal)
      (hjob : jobs thread = .activate id) : Permitted journal thread time (.activate id)
  | invalidate {read : ApprovalRow} {reason : Text} (hsilent : Silent thread journal)
      (hjob : jobs thread = .invalidate read.id reason) :
      Permitted journal thread time (.invalidate read reason)
  | claim {read : ApprovalRow} {confirmation : ApprovalConfirmation}
      {lease : Time} (hsilent : Silent thread journal)
      (hseen : Seen start journal read) (hid : read.id = confirmation.id)
      (hclaim : p.claimRefusal confirmation lease read = none)
      (hpresents : Presents clock jobs thread time confirmation lease) :
      Permitted journal thread time (.claim read confirmation lease)
  | deny {read : ApprovalRow} {confirmation : ApprovalConfirmation}
      {lease : Time} {message : String} {terminal : Bool}
      (hsilent : Silent thread journal) (hseen : Seen start journal read)
      (hid : read.id = confirmation.id) (hterminal : terminal = true →
        p.claimRefusal confirmation lease read = some (message, true))
      (hpresents : Presents clock jobs thread time confirmation lease) :
      Permitted journal thread time (.deny (read.attemptedBy confirmation) message terminal)
  | complete {id : Text} {now : Time} (hsilent : Silent thread journal)
      (hjob : jobs thread = .complete id now) : Permitted journal thread time (.complete id now)
  | retry {id raw code : Text} (hsilent : Silent thread journal)
      (hjob : jobs thread = .retry id raw) : Permitted journal thread time (.retry id code)
  | completeExecution {id : Text} {now : Time} (hexecutes : Executes jobs thread id journal) :
      Permitted journal thread time (.complete id now)
  | retryExecution {id code : Text} (hexecutes : Executes jobs thread id journal) :
      Permitted journal thread time (.retry id code)
  | writeAudit {event : ApprovalEvent} {executor : ApprovalExecutor}
      {id bindingToken : Text} {actor : TransportActor} (hsilent : Silent thread journal)
      (hjob : jobs thread = .execute executor id bindingToken actor) :
      Permitted journal thread time (.writeAudit event)

/-- A journal of transactions that were permitted, each of them applied to the
store that the earlier ones had left. -/
inductive Lawful (s : Precision) : List Commit → Prop
  | nil : Lawful s []
  | cons {journal : List Commit} {newest : Commit} (hearlier : Lawful s journal)
      (happlied : Applied s (storeAt start journal) newest.store newest.transaction)
      (hpermits : Permitted p clock jobs start journal newest.thread newest.time newest.transaction)
      (htime : ∀ commit ∈ journal, commit.time ≤ newest.time) : Lawful s (newest :: journal)

/-- The thread has committed nothing but denials of its confirmation. -/
def Denied (thread : Thread) (journal : List Commit) : Prop :=
  ∀ commit ∈ journal, commit.thread = thread →
    (∃ confirmation lease, jobs thread = .claim confirmation lease) ∧ ∃ attempt message terminal,
        commit.transaction = .deny attempt message terminal

end Permits

end GotthMail
