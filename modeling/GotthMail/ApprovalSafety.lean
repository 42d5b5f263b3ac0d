/-
Every request of the approval store keeps to the transactions that are
permitted, whatever the others do in between: what it has read was there, what
it has not committed stays uncommitted, and the clock does not run backwards.
-/
import GotthMail.ApprovalJournal

namespace GotthMail

open Bytes Relational Calls

variable {s : Precision} {p : Platform} {clock : Time → Time → Prop} {start : ApprovalStore}
  {thread : Thread} {jobs : Thread → ApprovalJob} {α : Type}

abbrev ApprovalInstant := Moment approvalInterface ApprovalWorld

/-- Time has passed, and others have committed. -/
structure Grows (thread : Thread) (state after : ApprovalInstant) : Prop where
  time : state.world.time ≤ after.world.time
  journal : ∃ added, after.world.journal = added ++ state.world.journal ∧
    ∀ commit ∈ added, commit.thread ≠ thread
  history : ∀ event ∈ state.history, event ∈ after.history

/-- A fact that neither time nor the others undo. -/
def Endurable (thread : Thread) (fact : ApprovalInstant → Prop) : Prop :=
  ∀ state after, fact state → Grows thread state after → fact after

def Accounts (start : ApprovalStore) (state : ApprovalInstant) : Prop :=
  state.world.store = storeAt start state.world.journal

/-- A transaction of the thread was committed and the answer to it was lost. -/
def Lost (thread : Thread) (state : ApprovalInstant) : Prop :=
  ∃ commit ∈ state.world.journal, commit.thread = thread ∧
    ⟨thread, .commit commit.transaction, .error .sql⟩ ∈ state.history

section Allowed

variable (s : Precision) (p : Platform) (clock : Time → Time → Prop)
  (jobs : Thread → ApprovalJob) (start : ApprovalStore)

/-- A failed request has committed nothing but a denial, unless it is an
execution or the answer to its transaction was lost. -/
def MayFail (thread : Thread) (state : ApprovalInstant) : Prop :=
  (∃ executor id bindingToken actor, jobs thread = .execute executor id bindingToken actor) ∨
    Denied jobs thread state.world.journal ∨ Lost thread state

def approvalAllowed (thread : Thread) (state : ApprovalInstant) : ApprovalCall → Prop
  | .commit transaction => Permitted p clock jobs start state.world.journal thread
      state.world.time transaction
  | .returned (some _) => MayFail jobs thread state
  | _ => True

@[reducible] def amongApprovals (thread : Thread) :
    Setting approvalInterface ApprovalInstant :=
  (approvalMachine s p clock).setting (approvalAllowed p clock jobs start) thread

end Allowed

section Growth

variable {other : Thread} {state after : ApprovalInstant} {call : ApprovalCall}
  {answer : call.Answer}

theorem acts_journal (hacts : (approvalMachine s p clock).Acts thread state call answer after) :
    state.world.time ≤ after.world.time ∧ ((after.world.journal = state.world.journal ∧
          after.world.store = state.world.store) ∨
        ∃ transaction next, call = .commit transaction ∧
          ApprovalStore.apply s p transaction state.world.store = .ok next ∧
          after.world.store = next ∧ after.world.journal =
            ⟨thread, transaction, after.world.time, next⟩ :: state.world.journal) := by
  obtain ⟨⟨time, htime, hdoes⟩, _⟩ := hacts
  cases call with
  | clock =>
    rw [hdoes.1]
    exact ⟨htime, .inl ⟨rfl, rfl⟩⟩
  | get id =>
    rw [hdoes.1]
    exact ⟨htime, .inl ⟨rfl, rfl⟩⟩
  | commit transaction =>
    rcases hdoes with ⟨next, happly, hafter, _⟩ | ⟨hafter, _⟩
    · rw [hafter]
      exact ⟨htime, .inr ⟨transaction, next, rfl, happly, rfl, rfl⟩⟩
    · rw [hafter]
      exact ⟨htime, .inl ⟨rfl, rfl⟩⟩
  | newID | newBindingToken | mapActor | decide | requestHash | flush
  | retryQueue | afterMutation | returned =>
    have hafter : after.world = { state.world with time } := hdoes
    rw [hafter]
    exact ⟨htime, .inl ⟨rfl, rfl⟩⟩

theorem acts_accounts (hacts : (approvalMachine s p clock).Acts thread state call answer after)
    (haccounts : Accounts start state) : Accounts start after := by
  unfold Accounts at haccounts ⊢
  rcases (acts_journal hacts).2 with ⟨hjournal, hstore⟩ |
    ⟨transaction, next, _, _, hstore, hjournal⟩
  · rw [hjournal, hstore, haccounts]
  · rw [hjournal, hstore]
    rfl

/-- A call of another thread, or one that commits nothing. -/
theorem acts_grows (hacts : (approvalMachine s p clock).Acts other state call answer after)
    (hother : other ≠ thread ∨ ∀ transaction, call ≠ .commit transaction) :
    Grows thread state after := by
  obtain ⟨htime, hcases⟩ := acts_journal hacts
  refine ⟨htime, ?_, ?_⟩
  · rcases hcases with ⟨hjournal, _⟩ | ⟨transaction, next, hcall, _, _, hjournal⟩
    · exact ⟨[], hjournal, by simp⟩
    · refine ⟨[_], hjournal, ?_⟩
      intro commit hcommit
      rw [List.mem_singleton.mp hcommit]
      exact hother.resolve_right fun hnever => hnever transaction hcall
  · intro event hevent
    rw [hacts.2]
    exact List.mem_cons_of_mem _ hevent

end Growth

section Facts

variable {fact other : ApprovalInstant → Prop}

namespace Endurable

theorem and (hfact : Endurable thread fact) (hother : Endurable thread other) :
    Endurable thread fun state => fact state ∧ other state :=
  fun _ _ hstate hgrows => ⟨hfact _ _ hstate.1 hgrows, hother _ _ hstate.2 hgrows⟩

theorem const (always : Prop) : Endurable thread fun _ => always := fun _ _ hstate _ => hstate

theorem silent : Endurable thread fun state => Silent thread state.world.journal := by
  intro state after hsilent hgrows
  obtain ⟨added, hjournal, hadded⟩ := hgrows.journal
  intro commit hcommit
  rw [hjournal] at hcommit
  rcases List.mem_append.mp hcommit with hnew | hold
  · exact hadded commit hnew
  · exact hsilent commit hold

theorem seen (start : ApprovalStore) (row : ApprovalRow) :
    Endurable thread fun state => Seen start state.world.journal row := by
  intro state after hseen hgrows
  obtain ⟨older, hsuffix, hrow⟩ := hseen
  obtain ⟨added, hjournal, _⟩ := hgrows.journal
  exact ⟨older, hsuffix.trans (hjournal ▸ List.suffix_append added _), hrow⟩

theorem read (clock : Time → Time → Prop) (now : Time) :
    Endurable thread fun state => ∃ read, read ≤ state.world.time ∧ clock read now :=
  fun _ _ ⟨read, hread, hclock⟩ hgrows => ⟨read, hread.trans hgrows.time, hclock⟩

theorem did (transaction : ApprovalTransaction) :
    Endurable thread fun state => Did thread transaction state.world.journal := by
  intro state after hdid hgrows
  obtain ⟨⟨commit, hcommit, hthread, hsame⟩, honly⟩ := hdid
  obtain ⟨added, hjournal, hadded⟩ := hgrows.journal
  rw [Did, hjournal]
  refine ⟨⟨commit, List.mem_append_right added hcommit, hthread, hsame⟩, ?_⟩
  intro other hother hown
  rcases List.mem_append.mp hother with hnew | hold
  · exact absurd hown (hadded other hnew)
  · exact honly other hold hown

theorem executes (jobs : Thread → ApprovalJob) (id : Text) :
    Endurable thread fun state => Executes jobs thread id state.world.journal := by
  intro state after hexecutes hgrows
  obtain ⟨hjob, read, confirmation, lease, hread, hdid⟩ := hexecutes
  exact ⟨hjob, read, confirmation, lease, hread, did _ _ _ hdid hgrows⟩

end Endurable

end Facts

theorem MayFail.of_silent {jobs : Thread → ApprovalJob} {thread : Thread}
    {state : ApprovalInstant} (hsilent : Silent thread state.world.journal) :
    MayFail jobs thread state :=
  .inr (.inl fun commit hcommit hthread => absurd hthread (hsilent commit hcommit))

section Rules

variable {fact : ApprovalInstant → Prop}

/-- A fact together with a journal that accounts for the store. -/
def Knows (start : ApprovalStore) (fact : ApprovalInstant → Prop)
    (state : ApprovalInstant) : Prop :=
  Accounts start state ∧ fact state

theorem knows_stable (hfact : Endurable thread fact) :
    (amongApprovals s p clock jobs start thread).Stable (Knows start fact) := by
  intro state after hstate hrely
  obtain ⟨other, hother, ⟨call, answer, _, hacts⟩ | hleft⟩ := hrely
  · exact ⟨acts_accounts hacts hstate.1, hfact _ _ hstate.2 (acts_grows hacts (.inl hother))⟩
  · rw [hleft]
    exact hstate

/-- What a call tells its caller, besides the outcome of a transaction. -/
def Told (clock : Time → Time → Prop) (start : ApprovalStore) :
    (call : ApprovalCall) → call.Answer → ApprovalInstant → Prop
  | .clock, now, state => ∃ read, read ≤ state.world.time ∧ clock read now
  | .get id, answer, state => ∀ row, answer = .ok (some row) →
      row.id = id ∧ Seen start state.world.journal row
  | _, _, _ => True

theorem told_endurable {call : ApprovalCall} {answer : call.Answer} :
    Endurable thread (Told clock start call answer) := by
  cases call with
  | clock => exact Endurable.read clock answer
  | get id =>
    intro state after htold hgrows row hrow
    exact ⟨(htold row hrow).1, Endurable.seen start row _ _ (htold row hrow).2 hgrows⟩
  | newID | newBindingToken | mapActor | decide | requestHash | flush
  | retryQueue | afterMutation | returned | commit =>
    exact Endurable.const True

theorem acts_told {call : ApprovalCall} {answer : call.Answer} {state after : ApprovalInstant}
    (hacts : (approvalMachine s p clock).Acts thread state call answer after)
    (haccounts : Accounts start state) : Told clock start call answer after := by
  obtain ⟨⟨time, htime, hdoes⟩, _⟩ := hacts
  cases call with
  | clock =>
    rw [Told, hdoes.1]
    exact ⟨time, le_refl _, hdoes.2⟩
  | get id =>
    intro row hrow
    rw [hdoes.1]
    rcases hdoes.2 with hanswer | hanswer
    · rw [hrow] at hanswer
      have hfind : state.world.store.approvals.find? id = some row := (Except.ok.inj hanswer).symm
      have hid : row.id = id := Table.find?_key hfind
      refine ⟨hid, state.world.journal, List.suffix_refl _, ?_⟩
      rw [rowAt, ← haccounts, hid]
      exact hfind
    · rw [hrow] at hanswer
      cases hanswer
  | newID | newBindingToken | mapActor | decide | requestHash | flush
  | retryQueue | afterMutation | returned | commit => trivial

/-- A call that commits nothing. -/
theorem ask_knows (hfact : Endurable thread fact) (call : ApprovalCall)
    (hcall : ∀ transaction, call ≠ .commit transaction)
    (hreturned : ∀ failure, call ≠ .returned failure) :
    (amongApprovals s p clock jobs start thread).Triple (Knows start fact)
      (askStore call) fun answer => Knows start fun state =>
        fact state ∧ Told clock start call answer state := by
  apply Setting.Triple.perform
  · intro state _
    cases call with
    | commit transaction => exact absurd rfl (hcall transaction)
    | returned failure => exact absurd rfl (hreturned failure)
    | _ => trivial
  · intro state answer after hstate hacts
    exact ⟨acts_accounts hacts hstate.1,
      hfact _ _ hstate.2 (acts_grows hacts (.inr hcall)), acts_told hacts hstate.1⟩
  · exact fun answer => knows_stable (hfact.and told_endurable)

/-- How the first transaction of a thread ends. -/
def Settles (thread : Thread) (transaction : ApprovalTransaction) (fact : ApprovalInstant → Prop) :
    Except Error Unit → ApprovalInstant → Prop
  | .ok (), state => Did thread transaction state.world.journal
  | .error reason, state =>
    (Silent thread state.world.journal ∧ fact state) ∨ (reason = .sql ∧ Lost thread state)

variable {transaction : ApprovalTransaction}

theorem Endurable.settles (hfact : Endurable thread fact) (answer : Except Error Unit) :
    Endurable thread (Settles thread transaction fact answer) := by
  cases answer with
  | ok u => exact Endurable.did _
  | error reason =>
    intro state after hstate hgrows
    rcases hstate with hstate | ⟨hsql, lost, hlost, hthread, hanswer⟩
    · exact .inl (Endurable.silent.and hfact _ _ hstate hgrows)
    · obtain ⟨added, hjournal, _⟩ := hgrows.journal
      have hkept := hjournal ▸ List.mem_append_right added hlost
      exact .inr ⟨hsql, lost, hkept, hthread, hgrows.history _ hanswer⟩

theorem acts_settles {answer : Except Error Unit} {state after : ApprovalInstant}
    (hfact : Endurable thread fact) (hstate : Silent thread state.world.journal ∧ fact state)
    (hacts : (approvalMachine s p clock).Acts thread state (.commit transaction)
      answer after) : Settles thread transaction fact answer after := by
  obtain ⟨⟨time, htime, hdoes⟩, hhistory⟩ := hacts
  rcases hdoes with ⟨next, _, hafter, hanswer⟩ | ⟨hafter, reason, rfl, _⟩
  · rcases hanswer with rfl | rfl
    · rw [Settles, hafter]
      refine ⟨⟨_, List.mem_cons_self, rfl, rfl⟩, ?_⟩
      intro commit hcommit hthread
      rcases List.mem_cons.mp hcommit with rfl | hold
      · rfl
      · exact absurd hthread (hstate.1 commit hold)
    · refine .inr ⟨rfl, ⟨thread, transaction, time, next⟩, ?_, rfl, ?_⟩
      · rw [hafter]
        exact List.mem_cons_self
      · rw [hhistory]
        exact List.mem_cons_self
  · have hgrows : Grows thread state after := by
      refine ⟨hafter ▸ htime, ⟨[], by rw [hafter]; rfl, by simp⟩, ?_⟩
      intro event hevent
      exact hhistory ▸ List.mem_cons_of_mem _ hevent
    exact .inl (Endurable.silent.and hfact _ _ hstate hgrows)

/-- The first transaction of a thread. -/
theorem commit_knows (hfact : Endurable thread fact) (hpermitted : ∀ state : ApprovalInstant,
      Silent thread state.world.journal → fact state →
        Permitted p clock jobs start state.world.journal thread state.world.time transaction) :
    (amongApprovals s p clock jobs start thread).Triple
      (Knows start fun state => Silent thread state.world.journal ∧ fact state)
      (askStore (.commit transaction)) fun answer =>
        Knows start (Settles thread transaction fact answer) := by
  apply Setting.Triple.perform
  · exact fun state hstate => hpermitted state hstate.2.1 hstate.2.2
  · exact fun hstate hacts => ⟨acts_accounts hacts hstate.1, acts_settles hfact hstate.2 hacts⟩
  · exact fun answer => knows_stable (hfact.settles answer)

theorem commit_any (hpermitted : ∀ state : ApprovalInstant, fact state →
      Permitted p clock jobs start state.world.journal thread state.world.time transaction) :
    (amongApprovals s p clock jobs start thread).Triple (Knows start fact)
      (askStore (.commit transaction)) fun _ => Knows start fun _ => True := by
  apply Setting.Triple.perform
  · exact fun state hstate => hpermitted state hstate.2
  · exact fun hstate hacts => ⟨acts_accounts hacts hstate.1, trivial⟩
  · exact fun answer => knows_stable (Endurable.const True)

section Tasks

variable {pre : ApprovalInstant → Prop}

/-- A task over the store: its failure may be reported. -/
abbrev Serves (s : Precision) (p : Platform) (clock : Time → Time → Prop)
    (jobs : Thread → ApprovalJob) (start : ApprovalStore) (thread : Thread)
    (fact : ApprovalInstant → Prop) (service : ApprovalService α)
    (post : α → ApprovalInstant → Prop) : Prop :=
  (amongApprovals s p clock jobs start thread).Attempts (Knows start fact) service
    (fun value => Knows start (post value)) (Knows start (MayFail jobs thread))

theorem serves_attempt {program : Program approvalInterface (Except Error α)}
    {holds : Except Error α → ApprovalInstant → Prop}
    (hprogram : (amongApprovals s p clock jobs start thread).Triple
      (Knows start fact) program fun answer => Knows start (holds answer))
    (hfails : ∀ reason state, holds (.error reason) state → MayFail jobs thread state) :
    Serves s p clock jobs start thread fact (Task.attempt program)
      fun value => holds (.ok value) := by
  refine Setting.Triple.consequence (fun _ hstate => hstate) hprogram ?_
  intro answer state hholds
  cases answer with
  | error reason => exact ⟨hholds.1, hfails reason state hholds.2⟩
  | ok value => exact hholds

theorem serves_of {result : Except Error α}
    (hfails : ∀ state, fact state → MayFail jobs thread state) :
    Serves s p clock jobs start thread fact (Task.of result)
      fun value state => fact state ∧ result = .ok value :=
  Setting.Attempts.of (fun _ _ hresult hstate => ⟨hstate.1, hstate.2, hresult⟩)
    fun state hstate => ⟨hstate.1, hfails state hstate.2⟩

end Tasks

end Rules

section Requests

variable {fact : ApprovalInstant → Prop}

abbrev SilentThread (thread : Thread) (state : ApprovalInstant) : Prop :=
  Silent thread state.world.journal

theorem Settles.mayFail {transaction : ApprovalTransaction} {reason : Error}
    {state : ApprovalInstant} (hsettles : Settles thread transaction fact (.error reason) state) :
    MayFail jobs thread state := by
  rcases hsettles with ⟨hsilent, _⟩ | ⟨_, hlost⟩
  · exact .of_silent hsilent
  · exact .inr (.inr hlost)

/-- A request that is one transaction. -/
theorem commitTx_serves (hfact : Endurable thread fact) {transaction : ApprovalTransaction}
    (hpermitted : ∀ state : ApprovalInstant, SilentThread thread state →
      fact state → Permitted p clock jobs start state.world.journal thread
        state.world.time transaction) :
    Serves s p clock jobs start thread
      (fun state => SilentThread thread state ∧ fact state) (commitTx transaction)
      fun _ state => Did thread transaction state.world.journal := by
  exact serves_attempt (commit_knows hfact hpermitted) fun _ _ hsettles => hsettles.mayFail

theorem getApproval_serves (hfact : Endurable thread fact) (id : Text) :
    Serves s p clock jobs start thread
      (fun state => SilentThread thread state ∧ fact state) (getApproval id)
      fun row state => (SilentThread thread state ∧ fact state) ∧
        row.id = id ∧ Seen start state.world.journal row := by
  have hknown := Endurable.silent.and hfact
  refine Setting.Attempts.bind (serves_attempt (ask_knows hknown (.get id) (by simp) (by simp))
      fun _ _ hstate => .of_silent hstate.1.1) ?_
  intro found
  refine Setting.Attempts.consequence (fun _ hstate => hstate)
    (serves_of fun _ hstate => .of_silent hstate.1.1) ?_ fun _ hstate => hstate
  intro row state hstate
  have hfound := require_ok_iff.mp hstate.2.2
  subst hfound
  exact ⟨hstate.1, hstate.2.1.1, hstate.2.1.2 row rfl⟩

variable {id : Text}

theorem activate_serves (hjob : jobs thread = .activate id) :
    Serves s p clock jobs start thread (fun state => SilentThread thread state ∧ True) (activate id)
      fun _ state => Did thread (.activate id) state.world.journal :=
  commitTx_serves (Endurable.const True) fun _ hsilent _ => .activate hsilent hjob

theorem complete_serves {now : Time} (hjob : jobs thread = .complete id now) :
    Serves s p clock jobs start thread
      (fun state => SilentThread thread state ∧ True) (complete id now)
      fun _ state => Did thread (.complete id now) state.world.journal :=
  commitTx_serves (Endurable.const True) fun _ hsilent _ => .complete hsilent hjob

theorem retryApproval_serves {code : Text} (hjob : jobs thread = .retry id code) :
    Serves s p clock jobs start thread
      (fun state => SilentThread thread state ∧ True) (p.retryApproval id code) fun _ state =>
        Did thread (.retry id (p.executionCode code)) state.world.journal :=
  commitTx_serves (Endurable.const True) fun _ hsilent _ => .retry hsilent hjob

theorem invalidate_serves {reason : Text} (hjob : jobs thread = .invalidate id reason) :
    Serves s p clock jobs start thread
      (fun state => SilentThread thread state ∧ True) (invalidate id reason) fun _ _ => True := by
  refine Setting.Attempts.bind (getApproval_serves (Endurable.const True) id) ?_
  intro read
  refine Setting.Attempts.consequence ?_
    (commitTx_serves (Endurable.const (read.id = id)) ?_) ?_ fun _ hstate => hstate
  · exact fun state hstate => ⟨hstate.1, hstate.2.1.1, hstate.2.2.1⟩
  · rintro state hsilent rfl
    exact .invalidate hsilent hjob
  · exact fun _ state hstate => ⟨hstate.1, trivial⟩

theorem requestID_serves (request : ApprovalRequest) :
    Serves s p clock jobs start thread (fun state => SilentThread thread state ∧ True)
      (Platform.requestID request) fun _ state => SilentThread thread state ∧ True := by
  have hknown : Endurable thread fun state => SilentThread thread state ∧ True :=
    Endurable.silent.and (Endurable.const True)
  unfold Platform.requestID
  split
  · refine Setting.Attempts.consequence (fun _ hstate => hstate)
      (serves_attempt (ask_knows hknown .newID (by simp) (by simp)) ?_)
      (fun _ _ hstate => ⟨hstate.1, hstate.2.1⟩) fun _ hstate => hstate
    exact fun _ _ hstate => .of_silent hstate.1.1
  · exact Setting.Attempts.pure fun _ hstate => hstate

theorem create_serves {request : ApprovalRequest} {now : Time}
    (hjob : jobs thread = .create request now) :
    Serves s p clock jobs start thread
      (fun state => SilentThread thread state ∧ True) (p.create request now) fun _ _ => True := by
  have hknown : Endurable thread fun state => SilentThread thread state ∧ True :=
    Endurable.silent.and (Endurable.const True)
  refine Setting.Attempts.bind (requestID_serves request) fun id => ?_
  refine Setting.Attempts.bind (serves_of fun _ hstate => .of_silent hstate.1) ?_
  intro _
  refine Setting.Attempts.bind (Setting.Attempts.consequence
    (fun _ hstate => ⟨hstate.1, hstate.2.1⟩)
    (serves_attempt (ask_knows hknown .newBindingToken (by simp) (by simp))
      fun _ _ hstate => .of_silent hstate.1.1)
    (fun _ _ hstate => hstate) fun _ hstate => hstate) ?_
  intro token
  refine Setting.Attempts.bind (serves_of fun _ hstate => .of_silent hstate.1.1) ?_
  intro _
  refine Setting.Attempts.bind (serves_of fun _ hstate => .of_silent hstate.1.1.1) ?_
  intro _
  refine Setting.Attempts.bind (Setting.Attempts.consequence ?_
    (commitTx_serves (Endurable.const (validBindingToken token = true)) ?_)
    (fun _ _ hstate => hstate) fun _ hstate => hstate) ?_
  · intro state hstate
    exact ⟨hstate.1, hstate.2.1.1.1.1, check_ok_iff.mp hstate.2.1.2⟩
  · intro state hsilent htoken
    exact .create hsilent hjob htoken rfl
  · exact fun _ => Setting.Attempts.pure fun _ hstate => ⟨hstate.1, trivial⟩

/-- The jobs that present a confirmation. -/
def Claimant (jobs : Thread → ApprovalJob) (thread : Thread) : Prop :=
  (∃ confirmation lease, jobs thread = .claim confirmation lease) ∨
    ∃ executor id bindingToken actor, jobs thread = .execute executor id bindingToken actor

theorem MayFail.of_denied {attempt : ApprovalRow} {message : String}
    {terminal : Bool} {state : ApprovalInstant} (hjob : Claimant jobs thread)
    (hdid : Did thread (.deny attempt message terminal) state.world.journal) :
    MayFail jobs thread state := by
  rcases hjob with hjob | hjob
  · exact .inr (.inl fun commit hcommit hthread => ⟨hjob, _, _, _, hdid.2 commit hcommit hthread⟩)
  · exact .inl hjob

section Claim

variable {confirmation : ApprovalConfirmation} {lease : Time}
  {read : ApprovalRow} {message : String} {terminal : Bool}

/-- What a request knows when it denies or claims. -/
abbrev Reads (clock : Time → Time → Prop) (jobs : Thread → ApprovalJob)
    (start : ApprovalStore) (thread : Thread)
    (confirmation : ApprovalConfirmation) (lease : Time) (read : ApprovalRow)
    (state : ApprovalInstant) : Prop :=
  (read.id = confirmation.id ∧ Seen start state.world.journal read) ∧
    Presents clock jobs thread state.world.time confirmation lease

theorem Endurable.presents : Endurable thread fun state =>
    Presents clock jobs thread state.world.time confirmation lease := by
  intro state after hpresents hgrows
  cases hpresents with
  | claim hjob => exact .claim hjob
  | execute hjob hlease hread hclock =>
    exact .execute hjob hlease (hread.trans hgrows.time) hclock

theorem Endurable.reads : Endurable thread
    (Reads clock jobs start thread confirmation lease read) :=
  ((Endurable.const _).and (Endurable.seen start read)).and Endurable.presents

/-- A denial ends the request in any case. -/
theorem claimFail_serves {α : Type} {post : α → ApprovalInstant → Prop}
    (lease : Time) (hjob : Claimant jobs thread) (hterminal : terminal = true →
      p.claimRefusal confirmation lease read = some (message, true)) :
    Serves s p clock jobs start thread (fun state => SilentThread thread state ∧
        Reads clock jobs start thread confirmation lease read state)
      (claimFail (α := α) read confirmation message terminal) post := by
  refine Setting.Attempts.bind (Setting.Attempts.observe (commit_knows Endurable.reads ?_)) ?_
  · intro state hsilent hreads
    exact .deny hsilent hreads.1.2 hreads.1.1 hterminal hreads.2
  · intro answer
    cases answer with
    | error reason =>
      apply Setting.Attempts.of
      · intro _ _ herror
        cases herror
      · exact fun state hstate => ⟨hstate.1, hstate.2.mayFail⟩
    | ok u =>
      apply Setting.Attempts.of
      · intro _ _ herror
        cases herror
      · exact fun state hstate => ⟨hstate.1, .of_denied hjob hstate.2⟩

/-- A claim that returns has been committed by this thread. -/
theorem claimRead_serves (hjob : Claimant jobs thread) :
    Serves s p clock jobs start thread (fun state => SilentThread thread state ∧
        Reads clock jobs start thread confirmation lease read state)
      (p.claimRead confirmation lease read) fun row state => row.id = read.id ∧
          Did thread (.claim read confirmation lease) state.world.journal := by
  unfold Platform.claimRead
  cases hrefusal : p.claimRefusal confirmation lease read with
  | some refusal =>
    obtain ⟨message, terminal⟩ := refusal
    refine claimFail_serves lease hjob ?_
    rintro rfl
    exact hrefusal
  | none =>
    refine Setting.Attempts.bind (Setting.Attempts.observe (commit_knows Endurable.reads ?_)) ?_
    · intro state hsilent hreads
      exact .claim hsilent hreads.1.2 hreads.1.1 hrefusal hreads.2
    · intro answer
      rcases answer with (message | _) | u
      · refine Setting.Attempts.consequence ?_
          (claimFail_serves lease hjob fun hterminal => by cases hterminal)
          (fun _ _ hstate => hstate) fun _ hstate => hstate
        intro state hstate
        refine ⟨hstate.1, ?_⟩
        rcases hstate.2 with hreads | ⟨hsql, _⟩
        · exact hreads
        · cases hsql
      · apply Setting.Attempts.of
        · intro _ _ herror
          cases herror
        · exact fun state hstate => ⟨hstate.1, hstate.2.mayFail⟩
      · exact Setting.Attempts.pure fun _ hstate => ⟨hstate.1, rfl, hstate.2⟩

theorem claim_serves (hfact : Endurable thread fact) (hjob : Claimant jobs thread)
    (hpresents : ∀ state : ApprovalInstant, fact state →
      Presents clock jobs thread state.world.time confirmation lease) :
    Serves s p clock jobs start thread (fun state => SilentThread thread state ∧ fact state)
      (p.claim confirmation lease) fun row state => ∃ read : ApprovalRow,
        (read.id = confirmation.id ∧ row.id = confirmation.id) ∧
          Did thread (.claim read confirmation lease) state.world.journal := by
  refine Setting.Attempts.bind (getApproval_serves hfact confirmation.id) ?_
  intro read
  by_cases hread : read.id = confirmation.id
  · refine Setting.Attempts.consequence ?_ (claimRead_serves hjob) ?_ fun _ hstate => hstate
    · intro state hstate
      exact ⟨hstate.1, hstate.2.1.1, hstate.2.2, hpresents state hstate.2.1.2⟩
    · intro row state hstate
      exact ⟨hstate.1, read, ⟨hread, hstate.2.1.trans hread⟩, hstate.2.2⟩
  · exact fun state hstate => absurd hstate.2.2.1 hread

end Claim

section Executor

variable {e : ApprovalExecutor} {id bindingToken : Text} {actor : TransportActor}
  {post : α → ApprovalInstant → Prop}

/-- Whatever an execution does, its failure may be reported. -/
theorem fails_execute (hjob : jobs thread = .execute e id bindingToken actor)
    {pre : ApprovalInstant → Prop} (reason : Error) :
    Serves s p clock jobs start thread pre (Task.of (.error reason) : ApprovalService α) post := by
  apply Setting.Attempts.of
  · intro _ _ herror
    cases herror
  · exact fun state hstate => ⟨hstate.1, .inl ⟨_, _, _, _, hjob⟩⟩

theorem writeEvent_serves (hjob : jobs thread = .execute e id bindingToken actor)
    (event : ApprovalEvent) :
    Serves s p clock jobs start thread (SilentThread thread)
      (ApprovalExecutor.writeEvent event) fun _ _ => True := by
  refine Setting.Attempts.bind (Setting.Attempts.observe (commit_any ?_)) ?_
  · exact fun state hsilent => .writeAudit hsilent hjob
  · intro answer
    cases answer with
    | error reason => exact fails_execute hjob _
    | ok u => exact Setting.Attempts.pure fun _ hstate => hstate

theorem refuse_serves (hjob : jobs thread = .execute e id bindingToken actor)
    (event : ApprovalEvent) (reason : Error) :
    Serves s p clock jobs start thread (SilentThread thread)
      (ApprovalExecutor.refuse event reason : ApprovalService α) post :=
  Setting.Attempts.bind (writeEvent_serves hjob event) fun _ => fails_execute hjob reason

/-- Look at the answer of a call. -/
theorem observe_silent (call : ApprovalCall) (hcall : ∀ transaction, call ≠ .commit transaction)
    (hreturned : ∀ failure, call ≠ .returned failure) :
    Serves s p clock jobs start thread (SilentThread thread)
      (Task.observe (askStore call)) fun answer state =>
        SilentThread thread state ∧ Told clock start call answer state :=
  Setting.Attempts.observe (ask_knows Endurable.silent call hcall hreturned)

variable {service : ApprovalService α}

/-- A service whose precondition asks for less. -/
theorem Serves.weaken {pre : ApprovalInstant → Prop}
    (hservice : Serves s p clock jobs start thread fact service post)
    (hpre : ∀ state, pre state → fact state) :
    Serves s p clock jobs start thread pre service post :=
  Setting.Attempts.consequence (fun state hstate => ⟨hstate.1, hpre state hstate.2⟩) hservice
    (fun _ _ hstate => hstate) fun _ hstate => hstate

theorem mappedActor_serves (hjob : jobs thread = .execute e id bindingToken actor) :
    Serves s p clock jobs start thread (SilentThread thread)
      (ApprovalExecutor.mappedActor id actor) fun _ => SilentThread thread := by
  refine Setting.Attempts.bind (observe_silent _ (by simp) (by simp)) ?_
  intro answer
  rcases answer with reason | (_ | mapped)
  · exact (refuse_serves hjob _ _).weaken fun _ hstate => hstate.1
  · exact (refuse_serves hjob _ _).weaken fun _ hstate => hstate.1
  · exact Setting.Attempts.pure fun _ hstate => ⟨hstate.1, hstate.2.1⟩

theorem foundApproval_serves (hjob : jobs thread = .execute e id bindingToken actor) :
    Serves s p clock jobs start thread (SilentThread thread)
      (ApprovalExecutor.foundApproval id actor) fun _ => SilentThread thread := by
  refine Setting.Attempts.bind (observe_silent _ (by simp) (by simp)) ?_
  intro answer
  rcases answer with reason | (_ | row)
  · exact (refuse_serves hjob _ _).weaken fun _ hstate => hstate.1
  · exact (refuse_serves hjob _ _).weaken fun _ hstate => hstate.1
  · exact Setting.Attempts.pure fun _ hstate => ⟨hstate.1, hstate.2.1⟩

theorem authorized_serves (hjob : jobs thread = .execute e id bindingToken actor)
    (row : ApprovalRow) (mapped : ActorRef) :
    Serves s p clock jobs start thread (SilentThread thread)
      (ApprovalExecutor.authorized row mapped) fun _ => SilentThread thread := by
  unfold ApprovalExecutor.authorized
  split
  · exact refuse_serves hjob _ _
  · refine Setting.Attempts.bind (observe_silent _ (by simp) (by simp)) ?_
    intro answer
    rcases answer with reason | (_ | _)
    · exact (refuse_serves hjob _ _).weaken fun _ hstate => hstate.1
    · exact (refuse_serves hjob _ _).weaken fun _ hstate => hstate.1
    · exact Setting.Attempts.pure fun _ hstate => ⟨hstate.1, hstate.2.1⟩

/-- A task that only asks: it keeps what is known, however it ends. -/
abbrev Asks (s : Precision) (p : Platform) (clock : Time → Time → Prop)
    (jobs : Thread → ApprovalJob) (start : ApprovalStore) (thread : Thread)
    (fact : ApprovalInstant → Prop) (service : ApprovalService α) : Prop :=
  (amongApprovals s p clock jobs start thread).Keeps (Knows start fact) service

theorem of_asks (result : Except Error α) :
    Asks s p clock jobs start thread fact (Task.of result) :=
  Setting.Attempts.of (fun _ _ _ hstate => hstate) fun _ hstate => hstate

theorem attempt_asks {program : Program approvalInterface (Except Error α)}
    {told : Except Error α → ApprovalInstant → Prop}
    (hprogram : (amongApprovals s p clock jobs start thread).Triple
      (Knows start fact) program fun answer => Knows start fun state =>
        fact state ∧ told answer state) :
    Asks s p clock jobs start thread fact (Task.attempt program) := by
  refine Setting.Triple.consequence (fun _ hstate => hstate) hprogram ?_
  intro answer state hstate
  cases answer with
  | error reason => exact ⟨hstate.1, hstate.2.1⟩
  | ok value => exact ⟨hstate.1, hstate.2.1⟩

theorem observe_asks (hservice : Asks s p clock jobs start thread fact service) :
    Serves s p clock jobs start thread fact (Task.observe service.run) fun _ => fact := by
  refine Setting.Attempts.observe (Setting.Triple.consequence (fun _ hstate => hstate) hservice ?_)
  intro answer state hstate
  cases answer with
  | error reason => exact hstate
  | ok value => exact hstate

theorem preflight_asks (hfact : Endurable thread fact) (row : ApprovalRow) :
    Asks s p clock jobs start thread fact (e.preflight row) := by
  refine Setting.Attempts.bind (of_asks _) fun _ => ?_
  split
  · exact Setting.Attempts.bind
      (attempt_asks (ask_knows hfact _ (by simp) (by simp))) fun _ => of_asks _
  · exact Setting.Attempts.pure fun _ hstate => hstate

theorem execute_asks (hfact : Endurable thread fact) (row : ApprovalRow) :
    Asks s p clock jobs start thread fact (e.execute row) := by
  refine Setting.Attempts.bind (of_asks _) fun _ => ?_
  split
  · exact attempt_asks (ask_knows hfact _ (by simp) (by simp))
  · exact attempt_asks (ask_knows hfact _ (by simp) (by simp))

theorem hook_asks (hfact : Endurable thread fact) {row : ApprovalRow} :
    Asks s p clock jobs start thread fact (e.hook row) := by
  unfold ApprovalExecutor.hook
  split
  · exact attempt_asks (ask_knows hfact _ (by simp) (by simp))
  · exact Setting.Attempts.pure fun _ hstate => hstate

theorem Asks.serves (hservice : Asks s p clock jobs start thread fact service)
    (hjob : jobs thread = .execute e id bindingToken actor) :
    Serves s p clock jobs start thread fact service fun _ => fact :=
  Setting.Attempts.consequence (fun _ hstate => hstate) hservice (fun _ _ hstate => hstate)
    fun _ hstate => ⟨hstate.1, .inl ⟨_, _, _, _, hjob⟩⟩

theorem unchanged_serves (hjob : jobs thread = .execute e id bindingToken actor)
    (row : ApprovalRow) :
    Serves s p clock jobs start thread (SilentThread thread) (e.unchanged row)
      fun _ => SilentThread thread := by
  refine Setting.Attempts.bind (observe_asks (preflight_asks Endurable.silent row)) ?_
  intro answer
  cases answer with
  | error reason => exact refuse_serves hjob _ _
  | ok u => exact Setting.Attempts.pure fun _ hstate => hstate

/-- The end of an execution writes what its claim allows it to. -/
theorem finish_serves (hjob : jobs thread = .execute e id bindingToken actor)
    {confirmed : ApprovalRow} (hid : confirmed.id = id) :
    Serves s p clock jobs start thread (fun state => Executes jobs thread id state.world.journal)
      (e.finish p confirmed) fun _ _ => True := by
  have hexecutes : Endurable thread fun state =>
      Executes jobs thread id state.world.journal := Endurable.executes jobs id
  refine Setting.Attempts.bind (observe_asks (execute_asks hexecutes confirmed)) ?_
  intro answer
  cases answer with
  | error reason =>
    refine Setting.Attempts.bind (Setting.Attempts.observe (commit_any fun state hstate => ?_)) ?_
    · rw [hid]
      exact .retryExecution hstate
    · intro retried
      cases retried with
      | error failure => exact fails_execute hjob _
      | ok u => exact fails_execute hjob _
  | ok u =>
    refine Setting.Attempts.bind ((hook_asks hexecutes).serves hjob) fun _ => ?_
    refine Setting.Attempts.bind (Setting.Attempts.observe
      (ask_knows hexecutes .clock (by simp) (by simp))) fun now => ?_
    refine serves_attempt (commit_any fun state hstate => ?_) ?_
    · rw [hid]
      exact .completeExecution hstate.1
    · exact fun _ _ _ => .inl ⟨_, _, _, _, hjob⟩

theorem executeTelegramApproval_serves (hjob : jobs thread = .execute e id bindingToken actor) :
    Serves s p clock jobs start thread (SilentThread thread)
      (e.executeTelegramApproval p id bindingToken actor) fun _ _ => True := by
  refine Setting.Attempts.bind (mappedActor_serves hjob) fun mapped => ?_
  refine Setting.Attempts.bind (foundApproval_serves hjob) fun row => ?_
  refine Setting.Attempts.bind (authorized_serves hjob row mapped) fun _ => ?_
  refine Setting.Attempts.bind (unchanged_serves hjob row) fun _ => ?_
  refine Setting.Attempts.bind (observe_silent .clock (by simp) (by simp)) ?_
  intro now
  refine Setting.Attempts.bind (claim_serves (Endurable.read clock now)
    (.inr ⟨_, _, _, _, hjob⟩) ?_) ?_
  · rintro state ⟨read, hread, hclock⟩
    exact .execute hjob rfl hread hclock
  · intro confirmed
    by_cases hid : confirmed.id = id
    · refine (finish_serves hjob hid).weaken ?_
      rintro state ⟨read, hread, hdid⟩
      exact ⟨⟨_, _, _, hjob⟩, _, _, _, hread.1, hdid⟩
    · rintro state ⟨_, read, hread, _⟩
      exact absurd hread.2 hid

end Executor

/-- The end of a request is reported as it may be. -/
theorem reported_safe {α : Type} {service : ApprovalService α} {post : α → ApprovalInstant → Prop}
    (hservice : Serves s p clock jobs start thread (SilentThread thread) service post) :
    (amongApprovals s p clock jobs start thread).Triple
      (Knows start (SilentThread thread)) (reported service) fun _ _ => True := by
  refine Setting.Triple.bind hservice ?_
  intro answer
  cases answer with
  | ok value =>
    exact Setting.Triple.perform (fun _ _ => trivial) (fun _ _ => trivial)
      fun _ => Setting.Stable.const True
  | error reason =>
    exact Setting.Triple.perform (fun _ hstate => hstate.2)
      (fun _ _ => trivial) fun _ => Setting.Stable.const True

theorem job_safe (s : Precision) (p : Platform) (clock : Time → Time → Prop)
    (jobs : Thread → ApprovalJob) (start : ApprovalStore) (thread : Thread) :
    (amongApprovals s p clock jobs start thread).Triple
      (Knows start (SilentThread thread)) ((jobs thread).program p) fun _ _ => True := by
  cases hjob : jobs thread with
  | create request now =>
    exact reported_safe ((create_serves hjob).weaken fun _ h => ⟨h, trivial⟩)
  | activate id =>
    exact reported_safe ((activate_serves hjob).weaken fun _ h => ⟨h, trivial⟩)
  | invalidate id reason =>
    exact reported_safe ((invalidate_serves hjob).weaken fun _ h => ⟨h, trivial⟩)
  | claim confirmation lease =>
    refine reported_safe ((claim_serves (Endurable.const True)
      (.inl ⟨_, _, hjob⟩) ?_).weaken fun _ h => ⟨h, trivial⟩)
    exact fun _ _ => .claim hjob
  | complete id now =>
    exact reported_safe ((complete_serves hjob).weaken fun _ h => ⟨h, trivial⟩)
  | retry id code =>
    exact reported_safe ((retryApproval_serves hjob).weaken fun _ h => ⟨h, trivial⟩)
  | execute executor id bindingToken actor =>
    exact reported_safe (executeTelegramApproval_serves hjob)

/-- Every pool of requests keeps to what is permitted. -/
theorem approvals_sound (s : Precision) (p : Platform)
    (clock : Time → Time → Prop) (jobs : Thread → ApprovalJob)
    {start : ApprovalWorld} (hstart : start.journal = []) :
    (approvalMachine s p clock).Sound (approvalAllowed p clock jobs start.store)
      ⟨⟨start, []⟩, fun thread => some ((jobs thread).program p)⟩ := by
  intro thread program hprogram later hsteps
  cases hprogram
  have hknows : Knows start.store (SilentThread thread) ⟨start, []⟩ := by
    constructor
    · rw [Accounts, hstart]
      rfl
    · rw [SilentThread, hstart]
      exact fun commit hcommit => absurd hcommit List.not_mem_nil
  exact job_safe s p clock jobs start.store thread later
    ((knows_stable Endurable.silent).steps hknows hsteps)

end Requests

end GotthMail
