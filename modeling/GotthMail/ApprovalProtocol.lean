/-
The life of one approval.  Any number of requests run over the store in any
order with clocks of their own; the committed transactions move the row along
its states, and a claim is only ever committed for what was asked for.
-/
import GotthMail.ApprovalSafety

namespace GotthMail

open Bytes Relational Calls

variable {s : Precision} {p : Platform} {clock : Time → Time → Prop} {jobs : Thread → ApprovalJob}
  {start : ApprovalStore} {journal : List Commit}

section Lawful

variable {thread : Thread} {time later : Time} {transaction : ApprovalTransaction}

theorem Permitted.mono (hlater : time ≤ later)
    (hpermitted : Permitted p clock jobs start journal thread time transaction) :
    Permitted p clock jobs start journal thread later transaction := by
  have hpresents {confirmation : ApprovalConfirmation} {lease : Time}
      (hbefore : Presents clock jobs thread time confirmation lease) :
      Presents clock jobs thread later confirmation lease := by
    cases hbefore with
    | claim hjob => exact .claim hjob
    | execute hjob hlease hread hclock =>
      exact .execute hjob hlease (hread.trans hlater) hclock
  cases hpermitted with
  | create hsilent hjob htoken hrequest =>
    exact .create hsilent hjob htoken hrequest
  | activate hsilent hjob => exact .activate hsilent hjob
  | invalidate hsilent hjob => exact .invalidate hsilent hjob
  | claim hsilent hseen hid hclaim hbefore =>
    exact .claim hsilent hseen hid hclaim (hpresents hbefore)
  | deny hsilent hseen hid hterminal hbefore =>
    exact .deny hsilent hseen hid hterminal (hpresents hbefore)
  | complete hsilent hjob => exact .complete hsilent hjob
  | retry hsilent hjob => exact .retry hsilent hjob
  | completeExecution hexecutes => exact .completeExecution hexecutes
  | retryExecution hexecutes => exact .retryExecution hexecutes
  | writeAudit hsilent hjob => exact .writeAudit hsilent hjob

/-- What every pool knows of its journal. -/
structure Kept (s : Precision) (p : Platform) (clock : Time → Time → Prop)
    (jobs : Thread → ApprovalJob) (start : ApprovalStore)
    (state : ApprovalInstant) : Prop where
  accounts : Accounts start state
  lawful : Lawful p clock jobs start s state.world.journal
  times : ∀ commit ∈ state.world.journal, commit.time ≤ state.world.time

theorem Kept.acts {state after : ApprovalInstant} {call : ApprovalCall}
    {answer : call.Answer} (hkept : Kept s p clock jobs start state)
    (hallowed : approvalAllowed p clock jobs start thread state call)
    (hacts : (approvalMachine s p clock).Acts thread state call answer after) :
    Kept s p clock jobs start after := by
  obtain ⟨htime, hcases⟩ := acts_journal hacts
  refine ⟨acts_accounts hacts hkept.accounts, ?_, ?_⟩
  · rcases hcases with ⟨hjournal, _⟩ | ⟨made, next, rfl, happly, _, hjournal⟩
    · rw [hjournal]
      exact hkept.lawful
    · rw [hjournal]
      refine .cons hkept.lawful ?_ (hallowed.mono htime)
        fun commit hcommit => (hkept.times commit hcommit).trans htime
      rw [← hkept.accounts]
      exact apply_ok happly
  · rcases hcases with ⟨hjournal, _⟩ | ⟨made, next, _, _, _, hjournal⟩
    · rw [hjournal]
      exact fun commit hcommit => (hkept.times commit hcommit).trans htime
    · rw [hjournal]
      intro commit hcommit
      rcases List.mem_cons.mp hcommit with rfl | hold
      · exact le_refl _
      · exact (hkept.times commit hold).trans htime

theorem kept_reachable {world : ApprovalWorld} (hstart : world.journal = [])
    {pool : Pool approvalInterface ApprovalWorld}
    (hreachable : (approvalMachine s p clock).Reachable world
      (fun thread => (jobs thread).program p) pool) :
    Kept s p clock jobs world.store pool.state := by
  refine Machine.Reachable.invariant (approvals_sound s p clock jobs hstart)
    (fun hkept hallowed hacts => hkept.acts hallowed hacts) (fun hkept => hkept) ?_ hreachable
  refine ⟨?_, ?_, ?_⟩
  · rw [Accounts, hstart]
    rfl
  · rw [hstart]
    exact .nil
  · rw [hstart]
    exact fun commit hcommit => absurd hcommit List.not_mem_nil

end Lawful

def ApprovalTransaction.target : ApprovalTransaction → Option Text
  | .create request _ => some request.id
  | .activate id => some id
  | .claim read _ _ => some read.id
  | .complete id _ => some id
  | .retry id _ => some id
  | .invalidate read _ => some read.id
  | .deny attempt _ terminal => if terminal then some attempt.id else none
  | .writeAudit _ => none

theorem ApprovalMove.target {s : Precision} {transaction : ApprovalTransaction}
    {id : Text} {before after : ApprovalProgress}
    (hmove : ApprovalMove s transaction id before after) : transaction.target = some id := by
  cases hmove with
  | activate | claim | complete | retry | invalidate | expire => rfl

/-- What a transaction does to one approval. -/
inductive RowStep (s : Precision) (id : Text) (transaction : ApprovalTransaction) :
    Option ApprovalRow → Option ApprovalRow → Prop
  | other {row : Option ApprovalRow} (hother : transaction.target ≠ some id) :
      RowStep s id transaction row row
  | create {request : ApprovalRequest} {now : Time}
      (hcreate : transaction = .create request now) (hid : request.id = id) :
      RowStep s id transaction none (some ⟨request.stored s now, {}⟩)
  | move {row : ApprovalRow} {after : ApprovalProgress}
      (hmove : ApprovalMove s transaction id row.progress after) :
      RowStep s id transaction (some row) (some { row with progress := after })

theorem Applied.rowStep {s : Precision} {store next : ApprovalStore}
    {transaction : ApprovalTransaction} (id : Text) (happlied : Applied s store next transaction) :
    RowStep s id transaction (store.approvals.find? id) (next.approvals.find? id) := by
  cases happlied with
  | @create request now hfresh hsets =>
    by_cases hid : request.id = id
    · subst hid
      rw [hsets request.id, if_pos rfl, hfresh]
      exact .create rfl rfl
    · rw [hsets id, if_neg (Ne.symm hid)]
      exact .other fun htarget => hid (Option.some.inj htarget)
  | @move _ moved row after hrow hmove hsets =>
    by_cases hid : moved = id
    · subst hid
      rw [hsets moved, if_pos rfl, hrow]
      exact .move hmove
    · rw [hsets id, if_neg (Ne.symm hid)]
      refine .other fun htarget => hid ?_
      rw [hmove.target] at htarget
      exact Option.some.inj htarget
  | event hevent hrows =>
    rw [hrows]
    refine .other ?_
    cases hevent with
    | deny | writeAudit => exact fun htarget => by cases htarget

def Commit.claims (id : Text) (commit : Commit) : Bool :=
  match commit.transaction with
  | .claim read _ _ => decide (read.id = id)
  | _ => false

def Commit.completes (id : Text) (commit : Commit) : Bool :=
  match commit.transaction with
  | .complete completed _ => decide (completed = id)
  | _ => false

theorem Commit.claims_target {id : Text} {commit : Commit} (hclaims : commit.claims id = true) :
    commit.transaction.target = some id := by
  unfold Commit.claims at hclaims
  split at hclaims
  · next htransaction =>
      rw [htransaction, ← of_decide_eq_true hclaims]
      rfl
  · cases hclaims

theorem Commit.completes_target {id : Text} {commit : Commit}
    (hcompletes : commit.completes id = true) : commit.transaction.target = some id := by
  unfold Commit.completes at hcompletes
  split at hcompletes
  · next htransaction =>
      rw [htransaction, ← of_decide_eq_true hcompletes]
      rfl
  · cases hcompletes

section Rows

variable {older : List Commit} {newest : Commit} {id : Text} {row read : ApprovalRow}

/-- The step that the newest commit of a lawful journal makes. -/
theorem Lawful.rowStep (id : Text) (hlawful : Lawful p clock jobs start s (newest :: journal)) :
    RowStep s id newest.transaction (rowAt start journal id)
      (rowAt start (newest :: journal) id) := by
  cases hlawful with
  | cons _ happlied _ _ => exact happlied.rowStep id

/-- A row stays, and it stays bound to the same things. -/
theorem Lawful.binding (hlawful : Lawful p clock jobs start s journal)
    (holder : older <:+ journal) (hread : rowAt start older id = some read) :
    ∃ row, rowAt start journal id = some row ∧ row.binding = read.binding := by
  induction hlawful with
  | nil =>
    rw [List.suffix_nil.mp holder] at hread
    exact ⟨read, hread, rfl⟩
  | @cons earlier newest hearlier happlied hpermits htime ih =>
    rcases List.suffix_cons_iff.mp holder with rfl | holder
    · exact ⟨read, hread, rfl⟩
    · obtain ⟨row, hrow, hbinding⟩ := ih holder
      have hstep := (Lawful.cons hearlier happlied hpermits htime).rowStep id
      rw [hrow] at hstep
      generalize hafter : rowAt start (newest :: earlier) id = after at hstep
      cases hstep with
      | other _ => exact ⟨row, rfl, hbinding⟩
      | move _ => exact ⟨_, rfl, hbinding⟩

/-- The row was created by a request of that job, in canonical form. -/
structure CreatedBy (s : Precision) (p : Platform) (jobs : Thread → ApprovalJob)
    (journal : List Commit) (id : Text) (binding : ApprovalBinding)
    (raw request : ApprovalRequest) (now : Time) : Prop where
  created : ∃ commit ∈ journal, commit.transaction = .create request now ∧
    jobs commit.thread = .create raw now
  named : request.id = id
  bound : binding = request.stored s now
  canonical : request = { p.canonicalRequest raw with
    id := request.id, bindingToken := request.bindingToken }
  token : validBindingToken request.bindingToken = true

/-- How far the approval has come, in terms of what has been committed. -/
structure Progress (s : Precision) (p : Platform) (jobs : Thread → ApprovalJob)
    (journal : List Commit) (id : Text) (row : ApprovalRow) : Prop where
  created : ∃ raw request now, CreatedBy s p jobs journal id row.binding raw request now
  activated : row.progress.result ≠ .creating → row.progress.result ≠ .rejected →
    ∃ commit ∈ journal, commit.transaction = .activate id
  attempts : row.progress.attempts = journal.countP (Commit.claims id)
  used : row.progress.usedAt.isSome = true ↔ row.progress.result = .approved
  completions : journal.countP (Commit.completes id) =
    if row.progress.result = .approved then 1 else 0

variable {request : ApprovalRequest} {now lease : Time} {after : ApprovalProgress}
  {confirmation : ApprovalConfirmation}

theorem CreatedBy.cons {binding : ApprovalBinding} {raw : ApprovalRequest}
    (hcreated : CreatedBy s p jobs journal id binding raw request now) :
    CreatedBy s p jobs (newest :: journal) id binding raw request now := by
  obtain ⟨commit, hcommit, hmade⟩ := hcreated.created
  exact { hcreated with
    created := ⟨commit, List.mem_cons_of_mem _ hcommit, hmade⟩ }

theorem Progress.other (hprogress : Progress s p jobs journal id row)
    (hother : newest.transaction.target ≠ some id) :
    Progress s p jobs (newest :: journal) id row := by
  obtain ⟨raw, request, now, hcreated⟩ := hprogress.created
  have hclaims : ¬ newest.claims id = true := fun hclaims => hother (Commit.claims_target hclaims)
  have hcompletes : ¬ newest.completes id = true :=
    fun hcompletes => hother (Commit.completes_target hcompletes)
  refine ⟨⟨raw, request, now, hcreated.cons⟩, ?_, ?_, hprogress.used, ?_⟩
  · intro hcreating hrejected
    obtain ⟨commit, hcommit, hmade⟩ := hprogress.activated hcreating hrejected
    exact ⟨commit, List.mem_cons_of_mem _ hcommit, hmade⟩
  · rw [List.countP_cons_of_neg hclaims]
    exact hprogress.attempts
  · rw [List.countP_cons_of_neg hcompletes]
    exact hprogress.completions

theorem result_of_claimable {before : Time} {progress : ApprovalProgress}
    (hclaimable : progress.claimable before = true) :
    progress.result = .pending ∨ progress.result = .executing := by
  simp only [ApprovalProgress.claimable, Bool.and_eq_true, Bool.or_eq_true,
    beq_iff_eq] at hclaimable
  rcases hclaimable.2 with hpending | hexecuting
  · exact .inl hpending
  · exact .inr hexecuting.1

theorem Progress.move (hprogress : Progress s p jobs journal id row)
    (hmove : ApprovalMove s newest.transaction id row.progress after) :
    Progress s p jobs (newest :: journal) id { row with progress := after } := by
  obtain ⟨raw, request, now, hcreated⟩ := hprogress.created
  have hattempts := hprogress.attempts
  have hused := hprogress.used
  have hcompletions := hprogress.completions
  generalize htransaction : newest.transaction = transaction at hmove
  have hactivated (hbefore : row.progress.result ≠ .creating)
      (hrejected : row.progress.result ≠ .rejected) :
      ∃ commit ∈ newest :: journal, commit.transaction = .activate id := by
    obtain ⟨commit, hcommit, hmade⟩ := hprogress.activated hbefore hrejected
    exact ⟨commit, List.mem_cons_of_mem _ hcommit, hmade⟩
  refine ⟨⟨raw, request, now, hcreated.cons⟩, ?_, ?_, ?_, ?_⟩
  · cases hmove with
    | activate _ => exact fun _ _ => ⟨newest, List.mem_cons_self, htransaction⟩
    | claim hclaimable =>
      rcases result_of_claimable hclaimable with hstate | hstate <;>
        exact fun _ _ => hactivated (by simp [hstate]) (by simp [hstate])
    | complete hstate | retry hstate =>
      exact fun _ _ => hactivated (by simp [hstate]) (by simp [hstate])
    | invalidate _ => exact fun _ hrejected => absurd rfl hrejected
    | expire hstate =>
      rcases hstate with hstate | hstate <;>
        exact fun _ _ => hactivated (by simp [hstate]) (by simp [hstate])
  · cases hmove with
    | claim _ =>
      simp [Commit.claims, htransaction, ApprovalProgress.claimed, hattempts]
    | activate _ | complete _ | retry _ | invalidate _ | expire _ =>
      rw [List.countP_cons_of_neg (by simp [Commit.claims, htransaction])]
      exact hattempts
  · cases hmove with
    | activate hstate | retry hstate =>
      simpa [ApprovalProgress.activated, ApprovalProgress.retried, hstate] using hused
    | claim hclaimable =>
      rcases result_of_claimable hclaimable with hstate | hstate <;>
        simpa [ApprovalProgress.claimed, hstate] using hused
    | complete _ => simp [ApprovalProgress.completed]
    | invalidate hstate | expire hstate =>
      rcases hstate with hstate | hstate <;>
        simpa [ApprovalProgress.closed, hstate] using hused
  · cases hmove with
    | activate hstate | retry hstate =>
      simpa [List.countP_cons, Commit.completes, htransaction, hstate,
        ApprovalProgress.activated, ApprovalProgress.retried] using hcompletions
    | claim hclaimable =>
      rcases result_of_claimable hclaimable with hstate | hstate <;>
        simpa [List.countP_cons, Commit.completes, htransaction, hstate,
          ApprovalProgress.claimed] using hcompletions
    | complete hstate =>
      simpa [List.countP_cons, Commit.completes, htransaction, hstate,
        ApprovalProgress.completed] using hcompletions
    | invalidate hstate | expire hstate =>
      rcases hstate with hstate | hstate <;>
        simpa [List.countP_cons, Commit.completes, htransaction, hstate,
          ApprovalProgress.closed] using hcompletions

/-- A row that has just been created. -/
theorem Progress.fresh (hid : request.id = id) (hcreate : newest.transaction = .create request now)
    (hpermits : Permitted p clock jobs start journal newest.thread newest.time newest.transaction)
    (hnone : ∀ commit ∈ journal, commit.transaction.target ≠ some id) :
    Progress s p jobs (newest :: journal) id ⟨request.stored s now, {}⟩ := by
  have hclaims : journal.countP (Commit.claims id) = 0 :=
    List.countP_eq_zero.mpr fun commit hcommit hclaims =>
      hnone commit hcommit (Commit.claims_target hclaims)
  have hcompletes : journal.countP (Commit.completes id) = 0 :=
    List.countP_eq_zero.mpr fun commit hcommit hcompletes =>
      hnone commit hcommit (Commit.completes_target hcompletes)
  rw [hcreate] at hpermits
  cases hpermits with
  | @create raw _ _ hsilent hjob htoken hrequest =>
    refine ⟨⟨raw, request, now, ?_⟩, ?_, ?_, ?_, ?_⟩
    · exact ⟨⟨newest, List.mem_cons_self, hcreate, hjob⟩, hid, rfl, hrequest, htoken⟩
    · exact fun hcreating _ => absurd rfl hcreating
    · rw [List.countP_cons_of_neg (by simp [Commit.claims, hcreate]), hclaims]
    · simp
    · rw [List.countP_cons_of_neg (by simp [Commit.completes, hcreate]), hcompletes]
      rfl

/-- The rows of an approval that was not there at the start. -/
theorem Lawful.progress (hlawful : Lawful p clock jobs start s journal)
    (hnew : start.approvals.find? id = none) :
    (rowAt start journal id = none → ∀ commit ∈ journal, commit.transaction.target ≠ some id) ∧
    ∀ row, rowAt start journal id = some row →
      Progress s p jobs journal id row := by
  induction hlawful with
  | nil =>
    refine ⟨fun _ commit hcommit => absurd hcommit List.not_mem_nil, ?_⟩
    intro row hrow
    rw [rowAt, storeAt, hnew] at hrow
    cases hrow
  | @cons earlier newest hearlier happlied hpermits htime ih =>
    have hstep := (Lawful.cons hearlier happlied hpermits htime).rowStep id
    generalize hbefore : rowAt start earlier id = before at hstep ih
    generalize hafter : rowAt start (newest :: earlier) id = after at hstep
    cases hstep with
    | other hother =>
      refine ⟨?_, fun row hrow => (ih.2 row hrow).other hother⟩
      intro hnone commit hcommit
      rcases List.mem_cons.mp hcommit with rfl | hold
      · exact hother
      · exact ih.1 hnone commit hold
    | move hmove =>
      refine ⟨fun hnone => absurd hnone (Option.some_ne_none _), ?_⟩
      rintro row ⟨⟩
      exact (ih.2 _ rfl).move hmove
    | @create request now hcreate hid =>
      refine ⟨fun hnone => absurd hnone (Option.some_ne_none _), ?_⟩
      rintro row ⟨⟩
      exact Progress.fresh hid hcreate hpermits (ih.1 rfl)

theorem Lawful.suffix (hlawful : Lawful p clock jobs start s journal)
    (holder : older <:+ journal) : Lawful p clock jobs start s older := by
  induction hlawful with
  | nil =>
    rw [List.suffix_nil.mp holder]
    exact .nil
  | cons hearlier happlied hpermits htime ih =>
    rcases List.suffix_cons_iff.mp holder with rfl | holder
    · exact .cons hearlier happlied hpermits htime
    · exact ih holder

/-- The states that an approval does not leave. -/
def ApprovalResult.final (result : ApprovalResult) : Prop :=
  result = .approved ∨ result = .rejected ∨ result = .expired

theorem ApprovalMove.not_final {transaction : ApprovalTransaction}
    {before : ApprovalProgress} (hmove : ApprovalMove s transaction id before after) :
    ¬ before.result.final := by
  rintro (hfinal | hfinal | hfinal) <;> cases hmove with
  | activate hstate | complete hstate | retry hstate =>
    rw [hfinal] at hstate
    cases hstate
  | claim hclaimable =>
    rcases result_of_claimable hclaimable with hstate | hstate <;>
      rw [hfinal] at hstate <;> cases hstate
  | invalidate hstate | expire hstate =>
    rcases hstate with hstate | hstate <;> rw [hfinal] at hstate <;>
      cases hstate

/-- A row in a final state is never written again. -/
theorem Lawful.final (hlawful : Lawful p clock jobs start s journal)
    (holder : older <:+ journal) (hrow : rowAt start older id = some row)
    (hfinal : row.progress.result.final) : rowAt start journal id = some row := by
  induction hlawful with
  | nil =>
    rw [List.suffix_nil.mp holder] at hrow
    exact hrow
  | @cons earlier newest hearlier happlied hpermits htime ih =>
    rcases List.suffix_cons_iff.mp holder with rfl | holder
    · exact hrow
    · have hstep := (Lawful.cons hearlier happlied hpermits htime).rowStep id
      rw [ih holder] at hstep
      generalize rowAt start (newest :: earlier) id = after at hstep
      cases hstep with
      | other _ => rfl
      | move hmove => exact absurd hfinal hmove.not_final

/-- The confirmation names what the request asked for, in the form in which
the store keeps it, and comes in time. -/
structure Agrees (s : Precision) (p : Platform) (raw : ApprovalRequest)
    (token : Text) (now : Time) (confirmation : ApprovalConfirmation) : Prop where
  transport : p.cleanToken confirmation.transportActor.transport 40 =
    p.cleanToken raw.transportActor.transport 40
  externalID : trimSpace confirmation.transportActor.externalID =
    trimSpace raw.transportActor.externalID
  actorType : p.cleanToken confirmation.actor.type 40 = p.cleanToken raw.actor.type 40
  actorID : trimSpace confirmation.actor.id = trimSpace raw.actor.id
  action : confirmation.action = raw.action
  resource : confirmation.resource = raw.resource
  requestHash : p.cleanToken confirmation.requestHash 128 = p.cleanToken raw.requestHash 128
  bindingToken : confirmation.bindingToken = token
  created : s.round now ≤ confirmation.now
  unexpired : confirmation.now < s.round raw.expiresAt

theorem claimRefusal_eq_none (hclaim : p.claimRefusal confirmation lease read = none) :
    read.binding.createdAt ≤ confirmation.now ∧ confirmation.now < read.binding.expiresAt ∧
      p.confirms confirmation read.binding = true := by
  unfold Platform.claimRefusal at hclaim
  split at hclaim
  · cases hclaim
  split at hclaim
  · cases hclaim
  split at hclaim
  · cases hclaim
  next htime =>
  split at hclaim
  · cases hclaim
  next hexpired =>
  split at hclaim
  · cases hclaim
  next hconfirms =>
  rw [not_or] at htime
  simp only [Bool.not_eq_true', Bool.not_eq_false] at hconfirms
  exact ⟨not_lt.mp htime.2, not_le.mp hexpired, hconfirms⟩

/-- The binding tokens that were issued or presented. -/
def tokensOf (journal : List Commit) : Set Text :=
  {token | ∃ commit ∈ journal, (∃ request now, commit.transaction = .create request now ∧
      request.bindingToken = token) ∨
    ∃ read confirmation lease, commit.transaction = .claim read confirmation lease ∧
        confirmation.bindingToken = token}

theorem tokensOf_mono {larger : List Commit} (hlarger : journal ⊆ larger) :
    tokensOf journal ⊆ tokensOf larger := by
  rintro token ⟨commit, hcommit, htoken⟩
  exact ⟨commit, hlarger hcommit, htoken⟩

/-- A row that a confirmation names was created for what it names. -/
theorem CreatedBy.agrees {raw : ApprovalRequest} {tokens : Set Text}
    (htoken : Set.InjOn hashBindingToken tokens) (hpresented : confirmation.bindingToken ∈ tokens)
    (hissued : tokensOf journal ⊆ tokens)
    (hcreated : CreatedBy s p jobs journal id read.binding raw request now)
    (hclaim : p.claimRefusal confirmation lease read = none) :
    Agrees s p raw request.bindingToken now confirmation := by
  obtain ⟨hfrom, huntil, hconfirms⟩ := claimRefusal_eq_none hclaim
  obtain ⟨⟨commit, hcommit, hcreate, _⟩, _, hbound, hcanonical, _⟩ := hcreated
  have hrequested : request.bindingToken ∈ tokens :=
    hissued ⟨commit, hcommit, .inl ⟨request, now, hcreate, rfl⟩⟩
  rw [hbound] at hfrom huntil hconfirms
  simp only [Platform.confirms, Bool.and_eq_true, beq_iff_eq] at hconfirms
  obtain ⟨⟨hnames, _⟩, hbinding⟩ := hconfirms
  have hnamed := of_decide_eq_true hnames
  have hsame := htoken hpresented hrequested hbinding
  simp only [ApprovalRequest.stored] at hnamed hfrom huntil
  rw [hcanonical] at hnamed huntil
  simp only [Platform.canonicalRequest] at hnamed huntil
  obtain ⟨htransport, hexternal, htype, hactor, haction, hresource, hhash⟩ := hnamed
  exact ⟨htransport, hexternal, htype, hactor, haction, hresource, hhash, hsame, hfrom, huntil⟩

/-- What stood behind a claim when it was committed. -/
theorem Lawful.claim {read : ApprovalRow}
    (htoken : Set.InjOn hashBindingToken (tokensOf (newest :: journal)))
    (hlawful : Lawful p clock jobs start s (newest :: journal))
    (hnew : start.approvals.find? id = none)
    (hclaim : newest.transaction = .claim read confirmation lease) (hid : read.id = id) :
    (∃ commit ∈ journal, commit.transaction = .activate id) ∧ ∃ binding raw request now,
        CreatedBy s p jobs journal id binding raw request now ∧
          Agrees s p raw request.bindingToken now confirmation := by
  have hstep := hlawful.rowStep id
  cases hlawful with
  | cons hearlier happlied hpermits htime =>
  rw [hclaim] at hstep hpermits
  generalize hbefore : rowAt start journal id = before at hstep
  generalize rowAt start (newest :: journal) id = after at hstep
  cases hstep with
  | other hother => exact absurd (congrArg some hid) hother
  | create hcreate _ => cases hcreate
  | @move row after hmove =>
    have hprogress := (hearlier.progress hnew).2 row hbefore
    cases hmove with
    | claim hclaimable =>
    cases hpermits with
    | claim hsilent hseen hconfirms hrefusal hpresents =>
    constructor
    · rcases result_of_claimable hclaimable with hstate | hstate <;>
        exact hprogress.activated (by simp [hstate]) (by simp [hstate])
    · obtain ⟨older, holder, hread⟩ := hseen
      obtain ⟨found, hfound, hbinding⟩ := hearlier.binding holder hread
      cases hbefore.symm.trans hfound
      obtain ⟨raw, request, now, hcreated⟩ := hprogress.created
      rw [hbinding] at hcreated
      refine ⟨_, raw, request, now, hcreated, hcreated.agrees htoken
        ⟨newest, List.mem_cons_self, .inr ⟨_, _, _, hclaim, rfl⟩⟩
        (tokensOf_mono (List.subset_cons_self _ _)) hrefusal⟩

/-- The moves of the result, and the transactions that make them. -/
inductive ResultMove (id : Text) :
    ApprovalTransaction → ApprovalResult → ApprovalResult → Prop
  | activate : ResultMove id (.activate id) .creating .pending
  | reject {read : ApprovalRow} {reason : Text} {before : ApprovalResult}
      (hid : read.id = id) (hbefore : before = .creating ∨ before = .pending) :
      ResultMove id (.invalidate read reason) before .rejected
  | claim {read : ApprovalRow} {confirmation : ApprovalConfirmation}
      {lease : Time} {before : ApprovalResult} (hid : read.id = id)
      (hbefore : before = .pending ∨ before = .executing) :
      ResultMove id (.claim read confirmation lease) before .executing
  | complete {now : Time} : ResultMove id (.complete id now) .executing .approved
  | retry {code : Text} : ResultMove id (.retry id code) .executing .pending
  | expire {attempt : ApprovalRow} {message : String} {before : ApprovalResult}
      (hid : attempt.id = id) (hbefore : before = .pending ∨ before = .executing) :
      ResultMove id (.deny attempt message true) before .expired

theorem ApprovalMove.result {transaction : ApprovalTransaction}
    {before : ApprovalProgress} (hmove : ApprovalMove s transaction id before after) :
    ResultMove id transaction before.result after.result := by
  cases hmove with
  | activate hstate =>
    rw [hstate]
    exact .activate
  | claim hclaimable => exact .claim rfl (result_of_claimable hclaimable)
  | complete hstate =>
    rw [hstate]
    exact .complete
  | retry hstate =>
    rw [hstate]
    exact .retry
  | invalidate hstate => exact .reject rfl hstate
  | expire hstate => exact .expire rfl hstate

/-- What one commit does to an approval: nothing, its creation, or a move. -/
inductive LifeStep (id : Text) (commit : Commit) :
    Option ApprovalRow → Option ApprovalRow → Prop
  | same {row : Option ApprovalRow} : LifeStep id commit row row
  | create {request : ApprovalRequest} {now : Time} {row : ApprovalRow}
      (hcreate : commit.transaction = .create request now)
      (hid : request.id = id) (hcreating : row.progress.result = .creating) :
      LifeStep id commit none (some row)
  | move {row after : ApprovalRow} (hbinding : after.binding = row.binding)
      (hmove : ResultMove id commit.transaction row.progress.result after.progress.result) :
      LifeStep id commit (some row) (some after)

theorem Lawful.lifeStep (hlawful : Lawful p clock jobs start s (newest :: journal)) (id : Text) :
    LifeStep id newest (rowAt start journal id) (rowAt start (newest :: journal) id) := by
  have hstep := hlawful.rowStep id
  generalize rowAt start journal id = before at hstep
  generalize rowAt start (newest :: journal) id = after at hstep
  cases hstep with
  | other _ => exact .same
  | create hcreate hid => exact .create hcreate hid rfl
  | move hmove => exact .move rfl hmove.result

end Rows

/-- A world in which everything works and a minute passes with every call. -/
def ApprovalWorld.respond (s : Precision) (p : Platform) (thread : Thread)
    (world : ApprovalWorld) : (call : ApprovalCall) → call.Answer × ApprovalWorld :=
  let later := { world with time := world.time + 60000000000 }
  fun
  | .clock => (later.time, later)
  | .newID => (.ok (ascii "approval-1"), later)
  | .newBindingToken => (.ok (ascii "AAAAAAAAAAAAAAAAAAAAAA"), later)
  | .get id => (.ok (later.store.approvals.find? id), later)
  | .commit transaction =>
    match ApprovalStore.apply s p transaction later.store with
    | .ok next => (.ok (), { later with
        store := next
        journal := ⟨thread, transaction, later.time, next⟩ :: later.journal })
    | .error reason => (.error reason, later)
  | .mapActor _ => (.ok (some ⟨ascii "user", ascii "u1"⟩), later)
  | .decide _ _ _ => (.ok true, later)
  | .requestHash _ _ => (.ok (ascii "h1"), later)
  | .flush => (.ok (), later)
  | .retryQueue _ => (.ok (), later)
  | .afterMutation _ => (.ok (), later)
  | .returned _ => ((), later)

def trueClock (time shown : Time) : Prop := shown = time

theorem ApprovalWorld.respond_performs (s : Precision) (p : Platform)
    (thread : Thread) (world : ApprovalWorld) (call : ApprovalCall) :
    (approvalMachine s p trueClock).performs thread world call
      (world.respond s p thread call).1 (world.respond s p thread call).2 := by
  refine ⟨world.time + 60000000000, Int.le_add_of_nonneg_right (by decide), ?_⟩
  cases call with
  | clock => exact ⟨rfl, rfl⟩
  | get id => exact ⟨rfl, .inl rfl⟩
  | commit transaction =>
    unfold ApprovalWorld.respond
    cases happly : ApprovalStore.apply s p transaction world.store with
    | ok next => exact .inl ⟨next, happly, by simp [happly], by simp [happly]⟩
    | error reason =>
      refine .inr ⟨by simp [happly], reason, by simp [happly], .inr happly⟩
  | newID | newBindingToken | mapActor | decide | requestHash | flush
  | retryQueue | afterMutation | returned => rfl

def ApprovalWorld.noted (s : Precision) (p : Platform) (thread : Thread)
    (state : ApprovalInstant) (call : ApprovalCall) : call.Answer × ApprovalInstant :=
  ((state.world.respond s p thread call).1, ⟨(state.world.respond s p thread call).2,
      ⟨thread, call, (state.world.respond s p thread call).1⟩ :: state.history⟩)

/-- The programs that are left after a schedule, and the moment. -/
abbrev ApprovalRun := (Thread → Program approvalInterface Unit) × ApprovalInstant

def ApprovalRun.pool (run : ApprovalRun) : Pool approvalInterface ApprovalWorld :=
  ⟨run.2, fun thread => some (run.1 thread)⟩

/-- A schedule of requests in a world where everything works. -/
def ApprovalWorld.scheduled (s : Precision) (p : Platform)
    (jobs : Thread → ApprovalJob) (start : ApprovalWorld)
    (schedule : List (Thread × Nat)) : ApprovalRun :=
  follow (ApprovalWorld.noted s p) schedule (fun thread => (jobs thread).program p) ⟨start, []⟩

theorem ApprovalWorld.scheduled_reachable (s : Precision) (p : Platform)
    (jobs : Thread → ApprovalJob) (start : ApprovalWorld) (schedule : List (Thread × Nat)) :
    (approvalMachine s p trueClock).Reachable start (fun thread => (jobs thread).program p)
      (start.scheduled s p jobs schedule).pool :=
  steps_of_follow id (fun thread state call => ⟨state.world.respond_performs s p thread call, rfl⟩)
    schedule _ _

/-- Columns that keep every instant. -/
def exactPrecision : Precision := ⟨id, monotone_id, fun _ => rfl⟩

def emptyApprovals : ApprovalWorld := ⟨⟨Table.empty, []⟩, 60000000000, []⟩

def flushRequest : ApprovalRequest where
  id := ascii "approval-1"
  transportActor := ⟨ascii "telegram", ascii "42"⟩
  initiator := ⟨ascii "service", ascii "monitor"⟩
  actor := ⟨ascii "user", ascii "u1"⟩
  action := ascii "queue:flush"
  resource := ⟨ascii "queue", ascii "all"⟩
  requestHash := ascii "h1"
  bindingToken := []
  correlationID := ascii "c1"
  expiresAt := 3600000000000

/-- The flush of a queue is asked for, prompted and executed; everybody else
executes it, too. -/
def flushJobs : Thread → ApprovalJob
  | 0 => .create flushRequest 60000000000
  | 1 => .activate (ascii "approval-1")
  | _ => .execute ⟨120000000000, true, false⟩ (ascii "approval-1")
      (ascii "AAAAAAAAAAAAAAAAAAAAAA") ⟨ascii "telegram", ascii "42"⟩

/-- The life of an approval, as the committed transactions tell it. -/
structure ApprovalLife (s : Precision) (p : Platform)
    (jobs : Thread → ApprovalJob) (start : ApprovalStore) (id : Text)
    (world : ApprovalWorld) : Prop where
  accounts : world.store = storeAt start world.journal
  steps : ∀ {later commit earlier}, world.journal = later ++ commit :: earlier →
    LifeStep id commit (rowAt start earlier id) (rowAt start (commit :: earlier) id)
  final : ∀ {older row}, older <:+ world.journal →
    rowAt start older id = some row → row.progress.result.final →
      world.store.approvals.find? id = some row
  used : ∀ row, world.store.approvals.find? id = some row →
    (row.progress.usedAt.isSome = true ↔ row.progress.result = .approved)
  completedOnce : world.journal.countP (Commit.completes id) ≤ 1
  attempts : ∀ row, world.store.approvals.find? id = some row →
    row.progress.attempts = world.journal.countP (Commit.claims id)
  claims : ∀ {later commit earlier read confirmation lease},
    world.journal = later ++ commit :: earlier →
    commit.transaction = .claim read confirmation lease → read.id = id →
      (∃ activation ∈ earlier, activation.transaction = .activate id) ∧ ∃ binding raw request now,
          CreatedBy s p jobs earlier id binding raw request now ∧
            Agrees s p raw request.bindingToken now confirmation

/-- Whatever requests run over the store and in whatever order, the approval
goes through its states as it should; and a request that reports a failure has
committed nothing but a denial, unless the answer to its transaction was
lost. -/
theorem approval_protocol (s : Precision) (p : Platform)
    (clock : Time → Time → Prop) (jobs : Thread → ApprovalJob)
    (start : ApprovalWorld) (hstart : start.journal = []) (id : Text)
    (hnew : start.store.approvals.find? id = none) (pool : Pool approvalInterface ApprovalWorld)
    (hreachable : (approvalMachine s p clock).Reachable start
      (fun thread => (jobs thread).program p) pool)
    (htoken : Set.InjOn hashBindingToken (tokensOf pool.state.world.journal)) :
    ApprovalLife s p jobs start.store id pool.state.world ∧ ∀ thread failure next,
        pool.running thread = some (.call (.returned (some failure)) next) →
          MayFail jobs thread pool.state := by
  have hkept := kept_reachable hstart hreachable
  have haccounts : pool.state.world.store =
      storeAt start.store pool.state.world.journal := hkept.accounts
  have hprogress := hkept.lawful.progress hnew
  have hsplit {later earlier : List Commit} {commit : Commit}
      (hjournal : pool.state.world.journal = later ++ commit :: earlier) :
      Lawful p clock jobs start.store s (commit :: earlier) :=
    hkept.lawful.suffix ⟨later, hjournal.symm⟩
  refine ⟨?_, ?_⟩
  · refine ⟨haccounts, ?_, ?_, ?_, ?_, ?_, ?_⟩
    · exact fun hjournal => (hsplit hjournal).lifeStep id
    · intro older row holder hrow hfinal
      rw [haccounts]
      exact hkept.lawful.final holder hrow hfinal
    · intro row hrow
      rw [haccounts] at hrow
      exact (hprogress.2 row hrow).used
    · cases hrow : rowAt start.store pool.state.world.journal id with
      | none =>
        have hzero : pool.state.world.journal.countP (Commit.completes id) = 0 :=
          List.countP_eq_zero.mpr fun commit hcommit hcompletes =>
            hprogress.1 hrow commit hcommit (Commit.completes_target hcompletes)
        omega
      | some row =>
        rw [(hprogress.2 row hrow).completions]
        split <;> omega
    · intro row hrow
      rw [haccounts] at hrow
      exact (hprogress.2 row hrow).attempts
    · intro later commit earlier read confirmation lease hjournal hclaim hid
      refine (hsplit hjournal).claim (htoken.mono (tokensOf_mono ?_)) hnew hclaim hid
      rw [hjournal]
      exact List.subset_append_right later _
  · exact fun thread failure next hrunning =>
      ((approvals_sound s p clock jobs hstart).reachable hreachable).permits hrunning

/-- The request, its prompt and its execution, one after the other. -/
def flushRun : ApprovalRun :=
  emptyApprovals.scheduled exactPrecision asciiPlatform flushJobs [(0, 4), (1, 2), (2, 10)]

/-- No token but one occurs. -/
def Commit.tokenIs (token : Text) (commit : Commit) : Bool :=
  match commit.transaction with
  | .create request _ => request.bindingToken == token
  | .claim _ confirmation _ => confirmation.bindingToken == token
  | _ => true

theorem injOn_of_tokenIs {token : Text} {journal : List Commit}
    (hall : journal.all (Commit.tokenIs token) = true) :
    Set.InjOn hashBindingToken (tokensOf journal) := by
  have honly : tokensOf journal ⊆ {token} := by
    rintro found ⟨commit, hcommit, hfound⟩
    have his := List.all_eq_true.mp hall commit hcommit
    rcases hfound with ⟨request, now, hcreate, rfl⟩ | ⟨read, confirmation, lease, hclaim, rfl⟩
    · simpa [Commit.tokenIs, hcreate] using his
    · simpa [Commit.tokenIs, hclaim] using his
  exact (Set.injOn_singleton _ _).mono honly

def flushResult (state : ApprovalInstant) : Option (ApprovalResult × Nat) :=
  (state.world.store.approvals.find? (ascii "approval-1")).map fun row =>
    (row.progress.result, row.progress.attempts)

set_option maxRecDepth 100000 in
theorem flushRun_shows :
    flushRun.2.world.journal.all (Commit.tokenIs (ascii "AAAAAAAAAAAAAAAAAAAAAA")) = true ∧
      flushResult flushRun.2 = some (.approved, 1) := by
  decide +kernel

theorem approval_protocol_flush :
    ApprovalLife exactPrecision asciiPlatform flushJobs emptyApprovals.store
        (ascii "approval-1") flushRun.2.world ∧
      flushResult flushRun.2 = some (.approved, 1) := by
  have hreachable : (approvalMachine exactPrecision asciiPlatform
      trueClock).Reachable emptyApprovals
        (fun thread => (flushJobs thread).program asciiPlatform) flushRun.pool :=
    ApprovalWorld.scheduled_reachable _ _ _ _ _
  obtain ⟨htokens, hresult⟩ := flushRun_shows
  generalize flushRun = run at hreachable htokens hresult
  exact ⟨(approval_protocol exactPrecision asciiPlatform trueClock flushJobs
    emptyApprovals rfl (ascii "approval-1") rfl run.pool hreachable
    (injOn_of_tokenIs htokens)).1, hresult⟩

end GotthMail
