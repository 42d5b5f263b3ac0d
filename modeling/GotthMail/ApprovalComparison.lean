/-
What an execution has compared before it changes the queue.  It decides on the
first row that it reads whether to compare the queue with the request; the row
that it claims is read again, and between the two the execution of somebody
else may have ended.
-/
import GotthMail.ApprovalFence
import GotthMail.Traces

namespace GotthMail

open Bytes Relational Calls

def ApprovalCall.mutates : ApprovalCall → Bool
  | .flush => true
  | .retryQueue _ => true
  | _ => false

section Executions

/-- Up to its claim an execution leaves the queue alone. -/
def LeavesQueue {α : Type} (service : ApprovalService α) : Prop :=
  Program.Avoids (S := approvalInterface) (fun call => call.mutates = true) service.run

variable {α β : Type}

theorem leavesQueue_bind {service : ApprovalService α}
    {next : α → ApprovalService β} (hservice : LeavesQueue service)
    (hnext : ∀ value, LeavesQueue (next value)) : LeavesQueue (service >>= next) :=
  Task.avoids_bind hservice hnext

theorem leavesQueue_of (result : Except Error α) : LeavesQueue (Task.of result) := trivial

variable {call : ApprovalCall} {events : List (Calls.Exchange approvalInterface)} {value : α}

theorem leavesQueue_observe (hcall : call.mutates = false) :
    LeavesQueue (Task.observe (askStore call)) :=
  ⟨fun hmutates => Bool.false_ne_true (hcall.symm.trans hmutates), fun _ => trivial⟩

theorem leavesQueue_refuse (event : ApprovalEvent) (reason : Error) :
    LeavesQueue (ApprovalExecutor.refuse event reason : ApprovalService α) := by
  refine leavesQueue_bind (leavesQueue_bind (leavesQueue_observe rfl) ?_) fun _ => leavesQueue_of _
  intro answer
  cases answer <;> trivial

/-- A service has returned a value after some exchanges. -/
def Returned (service : ApprovalService α)
    (events : List (Calls.Exchange approvalInterface)) (value : α) : Prop :=
  Traces service.run events (.done (.ok value))

theorem returned_bind {service : ApprovalService α} {next : α → ApprovalService β}
    {result : β} (hreturned : Returned (service >>= next) events result) :
    ∃ value first second, events = first ++ second ∧
      Returned service first value ∧ Returned (next value) second result :=
  Task.traces_bind_ok hreturned

theorem returned_of {result : Except Error α} (hreturned : Returned (Task.of result) events value) :
    events = [] ∧ result = .ok value := by
  cases hreturned
  exact ⟨rfl, rfl⟩

theorem returned_observe {answer : call.Answer}
    (hreturned : Returned (Task.observe (askStore call)) events answer) :
    events = [⟨call, answer⟩] := by
  cases hreturned with
  | step hrest =>
    cases hrest
    rfl

theorem not_returned_refuse {event : ApprovalEvent} {reason : Error}
    (hreturned : Returned (ApprovalExecutor.refuse event reason) events value) :
    False := by
  obtain ⟨_, first, second, -, -, hsecond⟩ := returned_bind hreturned
  cases (returned_of hsecond).2

variable {e : ApprovalExecutor} {p : Platform} {id bindingToken : Text}
  {actor : TransportActor} {row : ApprovalRow} {mapped : ActorRef}
  {events : List (Calls.Exchange approvalInterface)}

theorem mappedActor_leavesQueue : LeavesQueue (ApprovalExecutor.mappedActor id actor) := by
  refine leavesQueue_bind (leavesQueue_observe rfl) fun answer => ?_
  rcases answer with reason | _ | mapped
  · exact leavesQueue_refuse _ _
  · exact leavesQueue_refuse _ _
  · trivial

theorem mappedActor_returned
    (hreturned : Returned (ApprovalExecutor.mappedActor id actor) events mapped) :
    events = [⟨.mapActor actor, .ok (some mapped)⟩] := by
  obtain ⟨answer, first, second, rfl, hfirst, hsecond⟩ := returned_bind hreturned
  rw [returned_observe hfirst]
  rcases answer with reason | _ | found
  · exact (not_returned_refuse hsecond).elim
  · exact (not_returned_refuse hsecond).elim
  · cases hsecond
    rfl

theorem foundApproval_leavesQueue : LeavesQueue (ApprovalExecutor.foundApproval id actor) := by
  refine leavesQueue_bind (leavesQueue_observe rfl) fun answer => ?_
  rcases answer with reason | _ | row
  · exact leavesQueue_refuse _ _
  · exact leavesQueue_refuse _ _
  · trivial

theorem foundApproval_returned
    (hreturned : Returned (ApprovalExecutor.foundApproval id actor) events row) :
    events = [⟨.get id, .ok (some row)⟩] := by
  obtain ⟨answer, first, second, rfl, hfirst, hsecond⟩ := returned_bind hreturned
  rw [returned_observe hfirst]
  rcases answer with reason | _ | found
  · exact (not_returned_refuse hsecond).elim
  · exact (not_returned_refuse hsecond).elim
  · cases hsecond
    rfl

theorem authorized_leavesQueue : LeavesQueue (ApprovalExecutor.authorized row mapped) := by
  unfold ApprovalExecutor.authorized
  split
  · exact leavesQueue_refuse _ _
  · refine leavesQueue_bind (leavesQueue_observe rfl) fun answer => ?_
    rcases answer with reason | _ | _
    · exact leavesQueue_refuse _ _
    · exact leavesQueue_refuse _ _
    · trivial

/-- Only an approval that is pending or being executed is gone on with. -/
theorem authorized_returned
    (hreturned : Returned (ApprovalExecutor.authorized row mapped) events ()) :
    events = [⟨.decide mapped row.binding.action row.binding.resource, .ok true⟩] ∧
      (row.progress.result = .pending ∨ row.progress.result = .executing) := by
  unfold ApprovalExecutor.authorized at hreturned
  split at hreturned
  · exact (not_returned_refuse hreturned).elim
  · next hopen =>
      obtain ⟨answer, first, second, rfl, hfirst, hsecond⟩ := returned_bind hreturned
      rw [returned_observe hfirst]
      rcases answer with reason | _ | _
      · exact (not_returned_refuse hsecond).elim
      · exact (not_returned_refuse hsecond).elim
      · cases hsecond
        refine ⟨rfl, ?_⟩
        simp only [Bool.or_eq_true, Bool.not_eq_true', Bool.or_eq_false_iff,
          not_or, not_and, Bool.not_eq_false] at hopen
        by_cases hpending : row.progress.result = .pending
        · exact .inl hpending
        · exact .inr (beq_iff_eq.mp (hopen.2 (beq_eq_false_iff_ne.mpr hpending)))

theorem leavesQueue_attempt {program : Program approvalInterface (Except Error α)}
    (hprogram : LeavesQueue (Task.attempt program)) :
    LeavesQueue (Task.observe program : ApprovalService (Except Error α)) :=
  Program.Avoids.bind hprogram fun _ => trivial

theorem preflight_leavesQueue : LeavesQueue (e.preflight row) := by
  refine leavesQueue_bind (leavesQueue_of _) fun _ => ?_
  split
  · exact leavesQueue_bind ⟨Bool.false_ne_true, fun _ => trivial⟩ fun _ => leavesQueue_of _
  · trivial

theorem unchanged_leavesQueue : LeavesQueue (e.unchanged row) := by
  refine leavesQueue_bind (leavesQueue_attempt preflight_leavesQueue) fun answer => ?_
  cases answer with
  | error reason => exact leavesQueue_refuse _ _
  | ok value => trivial

/-- The comparison with the queue as it is now, and its good outcome. -/
def comparison (row : ApprovalRow) : Calls.Exchange approvalInterface :=
  ⟨.requestHash row.binding.action row.binding.resource, .ok row.binding.requestHash⟩

theorem preflight_returned (hreturned : Returned (e.preflight row) events ()) :
    events = if row.progress.result = .pending then [comparison row] else [] := by
  obtain ⟨_, first, second, rfl, hfirst, hsecond⟩ := returned_bind hreturned
  rw [(returned_of hfirst).1, List.nil_append]
  split at hsecond
  · next hpending =>
      rw [if_pos hpending]
      obtain ⟨hash, asked, rest, rfl, hasked, hrest⟩ := returned_bind hsecond
      obtain ⟨rfl, hsame⟩ := returned_of hrest
      rw [check_ok_iff, beq_iff_eq] at hsame
      cases hasked with
      | step hdone =>
        cases hdone
        rw [comparison, hsame]
        rfl
  · next hpending =>
      rw [if_neg hpending]
      cases hsecond
      rfl

theorem unchanged_returned (hreturned : Returned (e.unchanged row) events ()) :
    events = if row.progress.result = .pending then [comparison row] else [] := by
  obtain ⟨answer, first, second, rfl, hfirst, hsecond⟩ := returned_bind hreturned
  obtain ⟨outcome, asked, rest, rfl, hasked, hrest⟩ := Traces.bind_done hfirst
  cases hrest
  cases answer with
  | error reason => exact (not_returned_refuse hsecond).elim
  | ok value =>
    cases hsecond
    rw [List.append_nil, List.append_nil]
    exact preflight_returned hasked

variable {confirmation : ApprovalConfirmation} {lease : Time} {confirmed : ApprovalRow}

theorem getApproval_leavesQueue : LeavesQueue (getApproval id) :=
  leavesQueue_bind ⟨Bool.false_ne_true, fun _ => trivial⟩ fun _ => leavesQueue_of _

theorem claimFail_leavesQueue {message : String} {terminal : Bool} :
    LeavesQueue (claimFail row confirmation message terminal : ApprovalService α) := by
  refine leavesQueue_bind (leavesQueue_observe rfl) fun answer => ?_
  cases answer <;> trivial

theorem claim_leavesQueue : LeavesQueue (p.claim confirmation lease) := by
  refine leavesQueue_bind getApproval_leavesQueue fun read => ?_
  unfold Platform.claimRead
  split
  · exact claimFail_leavesQueue
  · refine leavesQueue_bind (leavesQueue_observe rfl) fun answer => ?_
    rcases answer with (message | _) | _
    · exact claimFail_leavesQueue
    · trivial
    · trivial

theorem not_returned_claimFail {message : String} {terminal : Bool}
    (hreturned : Returned (claimFail row confirmation message terminal) events value) :
    False := by
  obtain ⟨answer, first, second, -, -, hsecond⟩ := returned_bind hreturned
  cases answer with
  | error reason => cases (returned_of hsecond).2
  | ok done => cases (returned_of hsecond).2

theorem getApproval_returned (hreturned : Returned (getApproval id) events row) :
    events = [⟨.get id, .ok (some row)⟩] := by
  obtain ⟨found, asked, rest, rfl, hasked, hrest⟩ := returned_bind hreturned
  obtain ⟨rfl, hfound⟩ := returned_of hrest
  rw [require_ok_iff] at hfound
  cases hasked with
  | step hdone =>
    cases hdone
    rw [hfound]
    rfl

theorem claim_returned (hreturned : Returned (p.claim confirmation lease) events confirmed) :
    ∃ read, events = [⟨.get confirmation.id, .ok (some read)⟩,
      ⟨.commit (.claim read confirmation lease), .ok ()⟩] := by
  obtain ⟨read, first, second, rfl, hfirst, hsecond⟩ := returned_bind hreturned
  refine ⟨read, ?_⟩
  rw [getApproval_returned hfirst]
  unfold Platform.claimRead at hsecond
  split at hsecond
  · exact (not_returned_claimFail hsecond).elim
  · obtain ⟨answer, asked, rest, rfl, hasked, hrest⟩ := returned_bind hsecond
    rw [returned_observe hasked]
    rcases answer with (message | _) | _
    · exact (not_returned_claimFail hrest).elim
    · cases (returned_of hrest).2
    · cases hrest
      rfl

/-- The exchanges of an execution up to its claim. -/
structure ExecutionTrace (id : Text) (row read : ApprovalRow)
    (confirmation : ApprovalConfirmation) (lease : Time)
    (events : List (Calls.Exchange approvalInterface)) : Prop where
  opened : row.progress.result = .pending ∨ row.progress.result = .executing
  events : ∃ actor mapped decision now rest, events =
    [⟨.mapActor actor, .ok (some mapped)⟩, ⟨.get id, .ok (some row)⟩] ++
      (⟨.decide mapped row.binding.action row.binding.resource, decision⟩ ::
        (if row.progress.result = .pending then [comparison row] else []) ++
        [⟨.clock, now⟩, ⟨.get id, .ok (some read)⟩]) ++
      ⟨.commit (.claim read confirmation lease), .ok ()⟩ :: rest

/-- An execution that is about to change the queue has claimed the approval. -/
theorem executeTelegramApproval_claimed
    {next : call.Answer → Program approvalInterface (Except Error Unit)}
    (hmutates : call.mutates = true) (htraces : Traces (S := approvalInterface)
      (e.executeTelegramApproval p id bindingToken actor).run events (.call call next)) :
    ∃ row read confirmation lease, confirmation.id = id ∧
      ExecutionTrace id row read confirmation lease events := by
  obtain ⟨mapped, first, rest, rfl, hmapped, htraces⟩ :=
    Task.traces_bind_call mappedActor_leavesQueue hmutates htraces
  obtain ⟨row, second, rest, rfl, hfound, htraces⟩ :=
    Task.traces_bind_call foundApproval_leavesQueue hmutates htraces
  obtain ⟨_, third, rest, rfl, hauthorized, htraces⟩ :=
    Task.traces_bind_call authorized_leavesQueue hmutates htraces
  obtain ⟨_, fourth, rest, rfl, hunchanged, htraces⟩ :=
    Task.traces_bind_call unchanged_leavesQueue hmutates htraces
  obtain ⟨now, fifth, rest, rfl, hclock, htraces⟩ :=
    Task.traces_bind_call (leavesQueue_observe rfl) hmutates htraces
  obtain ⟨confirmed, sixth, rest, rfl, hclaim, -⟩ :=
    Task.traces_bind_call claim_leavesQueue hmutates htraces
  obtain ⟨hdecided, hopened⟩ := authorized_returned hauthorized
  obtain ⟨read, hclaimed⟩ := claim_returned hclaim
  rw [mappedActor_returned hmapped, foundApproval_returned hfound, hdecided,
    unchanged_returned hunchanged, returned_observe hclock, hclaimed]
  refine ⟨row, read, ⟨id, actor, mapped, row.binding.action,
    row.binding.resource, row.binding.requestHash, bindingToken, now⟩,
    e.leaseTime, rfl, hopened, actor, mapped, .ok true, now, rest, ?_⟩
  simp only [List.cons_append, List.nil_append, List.append_assoc]

/-- The same for the whole request, which reports at its end. -/
theorem reported_claimed {next : call.Answer → Program approvalInterface Unit}
    (hmutates : call.mutates = true) (htraces : Traces (S := approvalInterface)
      (reported (e.executeTelegramApproval p id bindingToken actor)) events (.call call next)) :
    ∃ row read confirmation lease, confirmation.id = id ∧
      ExecutionTrace id row read confirmation lease events := by
  have hreport {answer later} (hrest : Traces (S := approvalInterface)
      (askStore (.returned answer)) later (.call call next)) : False := by
    cases hrest with
    | stop => cases hmutates
    | step hdone => cases hdone
  rcases Traces.bind_cases htraces with ⟨left, hleft, hfinal⟩ | hafter
  · cases left with
    | done outcome =>
      cases outcome <;> (cases hfinal; cases hmutates)
    | call made rest =>
      cases hfinal
      exact executeTelegramApproval_claimed hmutates hleft
  · obtain ⟨outcome, first, second, -, -, hsecond⟩ := hafter
    cases outcome <;> exact (hreport hsecond).elim

end Executions

section Runs

variable {s : Precision} {p : Platform} {clock : Time → Time → Prop}
  {jobs : Thread → ApprovalJob} {start : ApprovalStore}
  {before after : Pool approvalInterface ApprovalWorld}
  {journal later earlier : List Commit} {id : Text} {row : ApprovalRow}

/-- Every commit between two moments is one of the events between them. -/
theorem steps_committed
    (hsteps : Relation.ReflTransGen (approvalMachine s p clock).Step before after) :
    ∃ events commits, after.state.history = events ++ before.state.history ∧
      after.state.world.journal = commits ++ before.state.world.journal ∧
      ∀ commit ∈ commits, ∃ event ∈ events, event.thread = commit.thread ∧
        event.action = .commit commit.transaction := by
  induction hsteps with
  | refl => exact ⟨[], [], rfl, rfl, fun _ hcommit => absurd hcommit List.not_mem_nil⟩
  | tail _ hstep ih =>
    obtain ⟨events, commits, hhistory, hjournal, hcaused⟩ := ih
    cases hstep with
    | @act actor call rest answer moment hrunning hacts =>
      refine ⟨⟨actor, call, answer⟩ :: events, ?_⟩
      rcases (acts_journal hacts).2 with ⟨hsame, _⟩ | hcommitted
      · refine ⟨commits, by rw [hacts.2, hhistory]; rfl, hsame.trans hjournal, ?_⟩
        intro commit hcommit
        obtain ⟨event, hevent, hcause⟩ := hcaused commit hcommit
        exact ⟨event, List.mem_cons_of_mem _ hevent, hcause⟩
      · obtain ⟨transaction, next, hcall, _, _, hnewest⟩ := hcommitted
        refine ⟨⟨actor, transaction, moment.world.time, next⟩ :: commits,
          by rw [hacts.2, hhistory]; rfl, by rw [hnewest, hjournal]; rfl, ?_⟩
        intro commit hcommit
        rcases List.mem_cons.mp hcommit with rfl | hcommit
        · exact ⟨_, List.mem_cons_self, rfl, hcall⟩
        · obtain ⟨event, hevent, hcause⟩ := hcaused commit hcommit
          exact ⟨event, List.mem_cons_of_mem _ hevent, hcause⟩
    | exit hrunning => exact ⟨events, commits, hhistory, hjournal, hcaused⟩

/-- Without a retry an approval that is neither being created nor pending stays
so. -/
theorem Lawful.stays_taken (hlawful : Lawful p clock jobs start s (later ++ earlier))
    (hrow : rowAt start earlier id = some row)
    (htaken : row.progress.result ≠ .creating ∧ row.progress.result ≠ .pending)
    (hnever : ∀ commit ∈ later, ∀ code, commit.transaction ≠ .retry id code) :
    ∃ final, rowAt start (later ++ earlier) id = some final ∧
      final.progress.result ≠ .creating ∧ final.progress.result ≠ .pending := by
  induction later with
  | nil => exact ⟨row, hrow, htaken⟩
  | cons commit rest ih =>
    rw [List.cons_append] at hlawful ⊢
    obtain ⟨middle, hmiddle, hcreating, hpending⟩ :=
      ih (hlawful.suffix (List.suffix_cons _ _)) fun other hother =>
        hnever other (List.mem_cons_of_mem _ hother)
    have hstep := hlawful.lifeStep id
    have hhead := hnever commit List.mem_cons_self
    rw [hmiddle] at hstep
    generalize rowAt start (commit :: (rest ++ earlier)) id = final at hstep
    cases hstep with
    | same => exact ⟨middle, rfl, hcreating, hpending⟩
    | @move _ moved hbinding hmove =>
      refine ⟨moved, rfl, ?_⟩
      generalize commit.transaction = transaction at hmove hhead
      generalize middle.progress.result = result at hmove hcreating hpending
      generalize moved.progress.result = reached at hmove
      cases hmove with
      | activate => exact absurd rfl hcreating
      | retry => exact absurd rfl (hhead _)
      | reject | claim | complete | expire => exact ⟨nofun, nofun⟩

/-- Only the end of an execution makes an approval pending again. -/
theorem Lawful.retried (hlawful : Lawful p clock jobs start s (later ++ earlier))
    (hrow : rowAt start earlier id = some row)
    (hexecuting : row.progress.result = .executing) {final : ApprovalRow}
    (hfinal : rowAt start (later ++ earlier) id = some final)
    (hpending : final.progress.result = .pending) :
    ∃ commit ∈ later, ∃ code, commit.transaction = .retry id code := by
  by_contra hnever
  push Not at hnever
  have htaken : row.progress.result ≠ .creating ∧ row.progress.result ≠ .pending := by
    rw [hexecuting]
    exact ⟨nofun, nofun⟩
  obtain ⟨reached, hreached, -, hnot⟩ := hlawful.stays_taken hrow htaken hnever
  cases hfinal.symm.trans hreached
  exact hnot hpending

variable {world : ApprovalWorld} {pool : Pool approvalInterface ApprovalWorld} {thread : Thread}

/-- A row that was read is the row of its moment. -/
theorem acts_get {state next : ApprovalInstant} (haccounts : Accounts start state)
    (hacts : (approvalMachine s p clock).Acts thread state (.get id) (.ok (some row)) next) :
    rowAt start state.world.journal id = some row ∧
      next.world.journal = state.world.journal := by
  obtain ⟨⟨time, -, hnext, hanswer | hanswer⟩, -⟩ := hacts
  · rw [rowAt, ← show state.world.store = _ from haccounts, hnext]
    exact ⟨(Except.ok.inj hanswer).symm, rfl⟩
  · cases hanswer

/-- A transaction that reports no error has been committed. -/
theorem acts_committed {transaction : ApprovalTransaction} {state next : ApprovalInstant}
    (hacts : (approvalMachine s p clock).Acts thread state (.commit transaction) (.ok ()) next) :
    ∃ commit : Commit, commit.thread = thread ∧ commit.transaction = transaction ∧
      next.world.journal = commit :: state.world.journal := by
  obtain ⟨⟨time, -, hcommits | hfails⟩, -⟩ := hacts
  · obtain ⟨store, -, hnext, -⟩ := hcommits
    exact ⟨⟨thread, transaction, time, store⟩, rfl, rfl, by rw [hnext]⟩
  · obtain ⟨-, reason, hreason, -⟩ := hfails
    cases hreason

theorem got_id (thread : Thread) (hstart : world.journal = [])
    (hreachable : (approvalMachine s p clock).Reachable world
      (fun thread => (jobs thread).program p) pool)
    (hmem : ⟨thread, .get id, .ok (some row)⟩ ∈ pool.state.history) : row.id = id := by
  obtain ⟨newer, older, hhistory⟩ := List.append_of_mem hmem
  obtain ⟨before, _, hbefore, -, hacts, -⟩ := hreachable.happened hhistory
  exact Table.find?_key (acts_get (kept_reachable hstart hbefore).accounts hacts).1

/-- The comparison of an approval with the queue, found to agree. -/
def Compared (thread : Thread) (approval : ApprovalRow)
    (events : List (Event approvalInterface)) : Prop :=
  ⟨thread, (comparison approval).1, (comparison approval).2⟩ ∈ events

/-- Somebody else has ended an execution of the approval. -/
def RetriedMeanwhile (thread : Thread) (id : Text)
    (events : List (Event approvalInterface)) : Prop :=
  ∃ event ∈ events, event.thread ≠ thread ∧ ∃ code, event.action = .commit (.retry id code)

/-- A thread has claimed an approval: the first row that it has read of it, the
events from there up to its claim, and the row that it has claimed. -/
def ClaimedAfter (start : ApprovalStore) (thread : Thread) (id : Text)
    (state : ApprovalInstant) (first : ApprovalRow)
    (meanwhile : List (Event approvalInterface)) (claimed : ApprovalRow) : Prop :=
  ∃ newest oldest read confirmation lease later claim earlier, state.history =
      newest ++ ⟨thread, .commit (.claim read confirmation lease), .ok ()⟩ ::
        (meanwhile ++ ⟨thread, .get id, .ok (some first)⟩ :: oldest) ∧
    (∀ answer, ⟨thread, .get id, answer⟩ ∉ oldest) ∧
    state.world.journal = later ++ claim :: earlier ∧ claim.thread = thread ∧
    claim.transaction = .claim read confirmation lease ∧ read.id = id ∧
    rowAt start earlier id = some claimed

/-- An execution that is about to change the queue under a claim of a pending
approval has compared the two exactly when the first row that it read was
pending; otherwise somebody else has made the approval pending in between. -/
theorem execution_compared_iff (s : Precision) (p : Platform)
    (clock : Time → Time → Prop) (jobs : Thread → ApprovalJob)
    (start : ApprovalWorld) (hstart : start.journal = [])
    (pool : Pool approvalInterface ApprovalWorld)
    (hreachable : (approvalMachine s p clock).Reachable start
      (fun thread => (jobs thread).program p) pool)
    {thread : Thread} {e : ApprovalExecutor} {id bindingToken : Text} {actor : TransportActor}
    (hjob : jobs thread = .execute e id bindingToken actor)
    {call : ApprovalCall} {next : call.Answer → Program approvalInterface Unit}
    (hrunning : pool.running thread = some (.call call next)) (hmutates : call.mutates = true) :
    ∃ first meanwhile claimed,
      ClaimedAfter start.store thread id pool.state first meanwhile claimed ∧
      (claimed.progress.result = .pending →
        (Compared thread claimed meanwhile ↔ first.progress.result = .pending) ∧
        (first.progress.result ≠ .pending → RetriedMeanwhile thread id meanwhile)) := by
  have htraces := hreachable.traces hrunning
  rw [hjob] at htraces
  obtain ⟨first, read, confirmation, lease, hid, hopened,
    actor, mapped, decision, now, rest, hevents⟩ := reported_claimed hmutates htraces
  -- The history, cut at the claim and at the first row that was read.
  obtain ⟨newest, past, hhistory, hpast, -⟩ := ownEvents_split hevents
  have hcut : ownEvents thread past = [⟨.mapActor actor, .ok (some mapped)⟩] ++
      ⟨.get id, .ok (some first)⟩ :: _ := hpast
  obtain ⟨meanwhile, oldest, rfl, holdest, hown⟩ := ownEvents_split hcut
  obtain ⟨claiming, claimedPool, hclaiming, hbefore, hclaim, hafter, hrest⟩ :=
    hreachable.happened hhistory
  obtain ⟨reading, readPool, hreading, hearlier, hread, -, hbetween⟩ := hclaiming.happened hbefore
  obtain ⟨hfirst, hsame⟩ := acts_get (kept_reachable hstart hreading).accounts hread
  obtain ⟨events, commits, hbetweenEvents, hcommits, hcaused⟩ := steps_committed hbetween
  rw [hsame] at hcommits
  have hmeanwhile : events = meanwhile := by
    rw [hbefore, hread.2, hearlier] at hbetweenEvents
    exact (List.append_cancel_right hbetweenEvents).symm
  subst hmeanwhile
  have hreadID : read.id = id := by
    refine got_id thread hstart hclaiming ?_
    rw [hbefore]
    refine List.mem_append_left _ (mem_ownEvents.mp ?_)
    rw [hown]
    simp
  obtain ⟨claim, hthread, htransaction, hjournal⟩ := acts_committed hclaim
  obtain ⟨_, later, -, hlater, -⟩ := steps_committed hrest
  have hlawful := (kept_reachable hstart hafter).lawful
  rw [hjournal] at hlawful hlater
  have hclaims : claim.claims id = true := by
    rw [Commit.claims, htransaction]
    exact decide_eq_true hreadID
  obtain ⟨claimed, -, hclaimed, -⟩ := hlawful.claimed hclaims
  refine ⟨first, events, claimed, ⟨newest, oldest, read, confirmation, lease,
    later, claim, claiming.state.world.journal, hhistory, ?_, hlater, hthread,
    htransaction, hreadID, hclaimed⟩, ?_⟩
  · intro answer hmem
    have hasked := mem_ownEvents.mpr hmem
    rw [holdest] at hasked
    simp at hasked
  intro hpending
  have hbound : claimed.binding = first.binding := by
    obtain ⟨row, hrow, hbinding⟩ := (kept_reachable hstart hclaiming).lawful.binding
      (hcommits ▸ List.suffix_append commits _) hfirst
    cases hclaimed.symm.trans hrow
    exact hbinding
  have hcomparison : comparison claimed = comparison first := by
    rw [comparison, comparison, hbound]
  constructor
  · rw [Compared, hcomparison, ← mem_ownEvents, hown]
    by_cases hfresh : first.progress.result = .pending
    · simp [hfresh]
    · simp [hfresh, comparison]
  · intro hstale
    have hexecuting := hopened.resolve_left hstale
    have hlawfulBefore := (kept_reachable hstart hclaiming).lawful
    rw [hcommits] at hlawfulBefore hclaimed
    obtain ⟨commit, hcommit, code, hretry⟩ :=
      hlawfulBefore.retried hfirst hexecuting hclaimed hpending
    obtain ⟨event, hevent, -, haction⟩ := hcaused commit hcommit
    refine ⟨event, hevent, ?_, code, haction.trans (by rw [hretry])⟩
    rintro rfl
    have hasked := mem_ownEvents.mpr hevent
    rw [hown, if_neg hstale] at hasked
    have hmade : event.action ∈ List.map Sigma.fst _ := List.mem_map_of_mem hasked
    rw [haction] at hmade
    simp at hmade

end Runs

/-- A thread is about to change the queue. -/
def nextMutates : Option (Program approvalInterface Unit) → Bool
  | some (.call action _) => ApprovalCall.mutates action
  | _ => false

theorem nextMutates_call {running : Option (Program approvalInterface Unit)}
    (hnext : nextMutates running = true) :
    ∃ (call : ApprovalCall) (next : call.Answer → Program approvalInterface Unit),
      running = some (.call call next) ∧ call.mutates = true := by
  match running with
  | some (.call action next) => exact ⟨action, next, rfl, hnext⟩

/-- The first execution has claimed the approval. -/
def freshRun : ApprovalRun :=
  promptedApprovals.scheduled exactPrecision asciiPlatform confirmJobs [(0, 7)]

theorem freshRun_mutates : nextMutates (freshRun.pool.running 0) = true := by
  decide +kernel

theorem execution_compared_iff_fresh :
    ∃ first meanwhile claimed, ClaimedAfter promptedApprovals.store 0 (ascii "approval-1")
        freshRun.pool.state first meanwhile claimed ∧
      (claimed.progress.result = .pending →
        (Compared 0 claimed meanwhile ↔ first.progress.result = .pending) ∧
        (first.progress.result ≠ .pending →
          RetriedMeanwhile 0 (ascii "approval-1") meanwhile)) := by
  obtain ⟨call, next, hrunning, hmutates⟩ := nextMutates_call freshRun_mutates
  have hreachable := ApprovalWorld.scheduled_reachable exactPrecision asciiPlatform
    confirmJobs promptedApprovals [(0, 7)]
  rw [show promptedApprovals.scheduled exactPrecision asciiPlatform confirmJobs
    [(0, 7)] = freshRun from rfl] at hreachable
  generalize freshRun.pool = pool at hrunning hreachable ⊢
  exact execution_compared_iff exactPrecision asciiPlatform trueClock confirmJobs
    promptedApprovals rfl pool hreachable rfl hrunning hmutates

/-- The same world, but the queue cannot be flushed. -/
def ApprovalWorld.stall (s : Precision) (p : Platform) (thread : Thread)
    (world : ApprovalWorld) (call : ApprovalCall) : call.Answer × ApprovalWorld :=
  match call with
  | .flush => (.error .sql, (world.respond s p thread .flush).2)
  | call => world.respond s p thread call

theorem ApprovalWorld.stall_performs (s : Precision) (p : Platform)
    (thread : Thread) (world : ApprovalWorld) (call : ApprovalCall) :
    (approvalMachine s p trueClock).performs thread world call
      (world.stall s p thread call).1 (world.stall s p thread call).2 := by
  cases call with
  | flush => exact world.respond_performs s p thread .flush
  | _ => exact world.respond_performs s p thread _

def ApprovalWorld.stalled (s : Precision) (p : Platform) (thread : Thread)
    (state : ApprovalInstant) (call : ApprovalCall) : call.Answer × ApprovalInstant :=
  ((state.world.stall s p thread call).1, ⟨(state.world.stall s p thread call).2,
      ⟨thread, call, (state.world.stall s p thread call).1⟩ :: state.history⟩)

/-- The second execution reads the approval while the first one executes it,
and claims it after the first has failed. -/
def unseenRun : ApprovalRun :=
  follow (ApprovalWorld.stalled exactPrecision asciiPlatform) [(0, 7), (1, 3), (0, 2), (1, 3)]
    (fun thread => (confirmJobs thread).program asciiPlatform) ⟨promptedApprovals, []⟩

theorem unseenRun_reachable :
    (approvalMachine exactPrecision asciiPlatform trueClock).Reachable promptedApprovals
      (fun thread => (confirmJobs thread).program asciiPlatform)
      unseenRun.pool :=
  steps_of_follow id (fun thread state call => ⟨state.world.stall_performs _ _ thread call, rfl⟩)
    _ _ _

/-- The row that the newest commit has claimed for a thread. -/
def newestClaimed (start : ApprovalStore) (thread : Thread) (id : Text) :
    List Commit → Option ApprovalRow
  | [] => none
  | claim :: earlier =>
    if claim.thread = thread ∧ claim.claims id = true then rowAt start earlier id
    else none

def ApprovalCall.hashes : ApprovalCall → Bool
  | .requestHash _ _ => true
  | _ => false

theorem unseenRun_shows : nextMutates (unseenRun.pool.running 1) = true ∧
    (∃ claimed ∈ newestClaimed promptedApprovals.store 1 (ascii "approval-1")
      unseenRun.pool.state.world.journal, claimed.progress.result = .pending) ∧
    ∀ event ∈ unseenRun.pool.state.history, event.thread = 1 →
      ApprovalCall.hashes event.action = false := by
  decide +kernel

/-- The second execution is about to change the queue under its claim of a
pending approval and has never asked for the hash of what it would do. -/
theorem unseenRun_uncompared :
    (approvalMachine exactPrecision asciiPlatform trueClock).Reachable promptedApprovals
        (fun thread => (confirmJobs thread).program asciiPlatform) unseenRun.pool ∧
      (∃ (call : ApprovalCall) (next : call.Answer → Program approvalInterface Unit),
        unseenRun.pool.running 1 = some (.call call next) ∧ call.mutates = true) ∧
      (∃ claimed ∈ newestClaimed promptedApprovals.store 1 (ascii "approval-1")
        unseenRun.pool.state.world.journal, claimed.progress.result = .pending) ∧
      ∀ event ∈ unseenRun.pool.state.history, event.thread = 1 →
        ApprovalCall.hashes event.action = false :=
  ⟨unseenRun_reachable, nextMutates_call unseenRun_shows.1, unseenRun_shows.2⟩

end GotthMail
