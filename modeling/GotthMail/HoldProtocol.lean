/-
The hold protocol as a whole.  Any number of requests run over one database in
any order, and any of them may stop between two calls.  At every release policy
permits the message, and the row of a queue file only goes through the states
that its requests may write.
-/
import GotthMail.HoldSafety

namespace GotthMail

open Bytes Relational Calls

/-- The notice of the sample database, with its hold applied. -/
def heldDatabase : Database :=
  let mover : Mover := ⟨2, policyService, ascii "hold-1", ascii "3bQzXk5Wn4z1v"⟩
  let required := (noticeDatabase.transact (Database.requireHoldTx byteLocale
    asciiPlatform mover ⟨.defer, .policyHold, Finmap.singleton (ascii "example.test") 1⟩)).2
  let started := (required.transact (Database.startQueueReconciliation byteLocale mover)).2
  (started.transact (Database.finishQueueReconciliation byteLocale mover .applied [])).2

/-- Postfix holds the message, too. -/
def heldSite : Site where
  world := ⟨heldDatabase, fun _ => none, fun _ => false⟩
  files queueID :=
    if queueID = ascii "3bQzXk5Wn4z1v" then
      some ⟨queueID, List.replicate 64 48, ascii "<>", [ascii "a@example.test"], true⟩
    else none

def heldOperator : Operator := ⟨policyService, ascii "release-1"⟩

def heldConfirmation : Text :=
  match ((asciiPlatform.preview (ascii "3bQzXk5Wn4z1v")).run.run
    (Site.respond byteLocale asciiPlatform 3 0) heldSite).1 with
  | .ok plan => plan.confirmationHash
  | .error _ => []

/-- Answer a call of a thread and note the event. -/
def Site.noted (locale : Locale) (p : Platform) (now : Time) (thread : Thread)
    (noted : Site × List (Event interface)) (call : Call) :
    call.Answer × Site × List (Event interface) :=
  ((noted.1.respond locale p now thread call).1, (noted.1.respond locale p now thread call).2,
    ⟨thread, call, (noted.1.respond locale p now thread call).1⟩ :: noted.2)

def Site.instant (noted : Site × List (Event interface)) : Instant := ⟨noted.1.world, noted.2⟩

theorem Site.noted_runs (locale : Locale) (p : Platform) (now : Time)
    (thread : Thread) (count : Nat) (program : Program interface Unit)
    (noted : Site × List (Event interface)) :
    Runs ((machine locale p).Acts thread) program (Site.instant noted)
      (program.advance (Site.noted locale p now thread) count noted).1 (Site.instant
        (program.advance (Site.noted locale p now thread) count noted).2) :=
  Runs.of_advance Site.instant
    (fun noted call => ⟨noted.1.respond_performs call, rfl⟩) count program noted

/-- Every thread asks for the release of the notice. -/
def heldJobs (_ : Thread) : Job := .release heldOperator (ascii "3bQzXk5Wn4z1v") heldConfirmation

/-- The first thread alone, up to its ninth call. -/
def heldRelease : Program interface Unit × Site × List (Event interface) :=
  ((heldJobs 0).program asciiPlatform).advance (Site.noted byteLocale asciiPlatform 3 0) 9
    (heldSite, [])

def asksRelease (queueID : Text) : Program interface Unit → Bool
  | .call (.release released) _ => decide (released = queueID)
  | _ => false

theorem exists_of_asksRelease {queueID : Text} {program : Program interface Unit}
    (hasks : asksRelease queueID program = true) :
    ∃ next, program = .call (.release queueID) next := by
  unfold asksRelease at hasks
  split at hasks
  · next released next =>
      cases of_decide_eq_true hasks
      exact ⟨next, rfl⟩
  · cases hasks

theorem heldRelease_asks : asksRelease (ascii "3bQzXk5Wn4z1v") heldRelease.1 = true := by
  decide +kernel

/-- Whenever Postfix is told to release a message, policy permits every recipient
of the stored record, the confirmation is that of the current policy, nothing
but a required hold has touched the row since the release started, and the last
observation was a matching message on hold. -/
theorem release_permitted {p : Platform} (hp : p.Lookup) (locale : Locale)
    (jobs : Thread → Job) (start : World) (pool : Pool interface World)
    (thread : Thread) (queueID : Text) (next : Except Error Unit → Program interface Unit)
    (hreachable : (machine locale p).Reachable start (fun thread => (jobs thread).program p) pool)
    (hrunning : pool.running thread = some (.call (.release queueID) next)) :
    ∃ operator confirmed record governing metadata,
      jobs thread = .release operator queueID confirmed ∧
        ReleaseCleared locale p thread queueID confirmed pool.state record
          governing metadata :=
  ((pool_sound hp locale jobs start).reachable hreachable).permits hrunning

theorem release_permitted_notice :
    ∃ record governing metadata, ReleaseCleared byteLocale asciiPlatform 0
      (ascii "3bQzXk5Wn4z1v") heldConfirmation (Site.instant heldRelease.2)
      record governing metadata := by
  have hsteps : (machine byteLocale asciiPlatform).Reachable heldSite.world
      (fun thread => (heldJobs thread).program asciiPlatform)
      ⟨Site.instant heldRelease.2, Function.update (fun thread =>
        some ((heldJobs thread).program asciiPlatform)) 0 (some heldRelease.1)⟩ :=
    Machine.steps_of_runs (Site.noted_runs byteLocale asciiPlatform 3 0 9 _ (heldSite, [])) rfl
  have hasks := heldRelease_asks
  generalize heldRelease.1 = program at hsteps hasks
  obtain ⟨next, rfl⟩ := exists_of_asksRelease hasks
  obtain ⟨operator, confirmed, record, governing, metadata, hjob, hcleared⟩ :=
    release_permitted asciiPlatform_lookup byteLocale heldJobs _ _ 0
      (ascii "3bQzXk5Wn4z1v") next hsteps (by dsimp only; rw [Function.update_self])
  cases hjob
  exact ⟨record, governing, metadata, hcleared⟩

section Invariant

variable {locale : Locale} {p : Platform} {jobs : Thread → Job} {start : World}
  {pool later : Pool interface World} {queueID : Text} {record : QueueRecord}

/-- A stored queue file stays stored, with the same identity. -/
theorem stored_reachable (hp : p.Lookup)
    (hstart : start.db.loadQueueRecord locale p queueID = .ok record)
    (hreachable : (machine locale p).Reachable start (fun thread => (jobs thread).program p) pool) :
    Stored locale p queueID record pool.state :=
  Machine.Reachable.invariant (pool_sound hp locale jobs start)
    (fun hstored _ hacts => hstored.acts hp hacts) (fun hstored => hstored)
    ⟨record, hstart, .refl record⟩ hreachable

theorem attempts_le_of_step {row : MessageRow} (hstep : (machine locale p).Step pool later)
    (hrow : pool.state.world.db.messages.find? queueID = some row) :
    ∃ after, later.state.world.db.messages.find? queueID = some after ∧
      row.reconciliationAttempts ≤ after.reconciliationAttempts := by
  cases hstep with
  | act _ hacts =>
    obtain ⟨after, hafter, rfl | ⟨hwrites, _⟩⟩ := (performs_keeps hacts.1 hrow).message
    · exact ⟨after, hafter, Int.le_refl _⟩
    · exact ⟨after, hafter, hwrites.holdStep.attempts_le⟩
  | exit _ => exact ⟨row, hrow, Int.le_refl _⟩

/-- The attempts of a queue file never decrease. -/
theorem attempts_le {row : MessageRow}
    (hsteps : Relation.ReflTransGen (machine locale p).Step pool later)
    (hrow : pool.state.world.db.messages.find? queueID = some row) :
    ∃ after, later.state.world.db.messages.find? queueID = some after ∧
      row.reconciliationAttempts ≤ after.reconciliationAttempts := by
  induction hsteps with
  | refl => exact ⟨row, hrow, Int.le_refl _⟩
  | tail _ hstep ih =>
    obtain ⟨middle, hmiddle, hbefore⟩ := ih
    obtain ⟨after, hafter, hnext⟩ := attempts_le_of_step hstep hmiddle
    exact ⟨after, hafter, hbefore.trans hnext⟩

/-- Only the end of a reconciliation writes that a message is held. -/
theorem Call.Writes.of_applied {call : Call} {row after : MessageRow}
    (hwrites : call.Writes p queueID row after) (hafter : after.holdState = .applied) :
    ∃ mover code, call = .finishReconciliation mover .applied code ∧ mover.queueID = queueID := by
  cases call with
  | requireHold =>
    obtain ⟨_, _, _, rfl⟩ := hwrites
    cases hafter
  | startReconciliation | startRelease =>
    obtain ⟨_, _, rfl⟩ := hwrites
    cases hafter
  | finishReconciliation mover state code =>
    obtain ⟨hmover, _, _, rfl⟩ := hwrites
    cases hafter
    exact ⟨mover, code, rfl, hmover⟩
  | finishRelease mover state code =>
    obtain ⟨_, _, hstate, rfl⟩ := hwrites
    cases hafter
    rcases hstate with hstate | hstate <;> cases hstate
  | _ => exact hwrites.elim

/-- Only the end of a release writes that a message is released. -/
theorem Call.Writes.of_released {call : Call} {row after : MessageRow}
    (hwrites : call.Writes p queueID row after) (hafter : after.holdState = .released) :
    ∃ mover code, call = .finishRelease mover .released code ∧ mover.queueID = queueID := by
  cases call with
  | requireHold =>
    obtain ⟨_, _, _, rfl⟩ := hwrites
    cases hafter
  | startReconciliation | startRelease =>
    obtain ⟨_, _, rfl⟩ := hwrites
    cases hafter
  | finishReconciliation mover state code =>
    obtain ⟨_, _, hstate, rfl⟩ := hwrites
    cases hafter
    rcases hstate with hstate | hstate <;> cases hstate
  | finishRelease mover state code =>
    obtain ⟨hmover, _, _, rfl⟩ := hwrites
    cases hafter
    exact ⟨mover, code, rfl, hmover⟩
  | _ => exact hwrites.elim

end Invariant

/-- The registered notice, which Postfix has on hold already. -/
def requiredSite : Site := { heldSite with world := noticeSite.world }

/-- One thread requires the hold, the others reconcile it. -/
def requiredJobs : Thread → Job
  | 0 => .requireHold heldOperator (ascii "3bQzXk5Wn4z1v")
      ⟨.defer, .policyHold, Finmap.singleton (ascii "example.test") 1⟩
  | _ => .reconcile heldOperator (ascii "3bQzXk5Wn4z1v")

def requiredRun : Program interface Unit × Site × List (Event interface) :=
  ((requiredJobs 0).program asciiPlatform).advance
    (Site.noted byteLocale asciiPlatform 3 0) 2 (requiredSite, [])

/-- The reconciliation is about to record what it has seen. -/
def reconciledRun : Program interface Unit × Site × List (Event interface) :=
  ((requiredJobs 1).program asciiPlatform).advance
    (Site.noted byteLocale asciiPlatform 3 1) 8 requiredRun.2

def recordedRun : Program interface Unit × Site × List (Event interface) :=
  reconciledRun.1.advance (Site.noted byteLocale asciiPlatform 3 1) 1 reconciledRun.2

def noticeState (site : Site) : Option HoldState :=
  (site.world.db.messages.find? (ascii "3bQzXk5Wn4z1v")).map MessageRow.holdState

theorem recordedRun_states :
    noticeState reconciledRun.2.1 = some .reconciling ∧
      noticeState recordedRun.2.1 = some .applied := by
  decide +kernel

theorem noticeDatabase_registered :
    ∃ registered, Database.registerTx byteLocale asciiPlatform 1
      (noticeRegistration [ascii "a@example.test"]) noticeBase =
        .ok ((registered, true), noticeSite.world.db) := by
  simp only [noticeSite]
  have hcreated : ((Database.registerTx byteLocale asciiPlatform 1
      (noticeRegistration [ascii "a@example.test"]) noticeBase).toOption.map
        fun result => result.1.2) = some true := by
    decide +kernel
  cases hresult : Database.registerTx byteLocale asciiPlatform 1
      (noticeRegistration [ascii "a@example.test"]) noticeBase with
  | error reason =>
    rw [hresult] at hcreated
    cases hcreated
  | ok result =>
    obtain ⟨⟨registered, created⟩, next⟩ := result
    rw [hresult] at hcreated
    cases hcreated
    have hnext : noticeDatabase = next := congrArg Prod.snd (transact_eq_ok_iff.mpr hresult)
    exact ⟨registered, by rw [hnext]⟩

/-- Both threads have run; what is left of the second is about to be called. -/
def reconciledPool : Pool interface World where
  state := Site.instant reconciledRun.2
  running := Function.update (Function.update (fun thread =>
    some ((requiredJobs thread).program asciiPlatform)) 0 (some requiredRun.1))
    1 (some reconciledRun.1)

theorem reconciledPool_state : reconciledPool.state = Site.instant reconciledRun.2 := by
  simp only [reconciledPool]

theorem reconciledPool_reachable :
    (machine byteLocale asciiPlatform).Reachable noticeSite.world
      (fun thread => (requiredJobs thread).program asciiPlatform)
      reconciledPool := by
  refine .trans (Machine.steps_of_runs (Site.noted_runs byteLocale asciiPlatform
    3 0 2 _ (requiredSite, [])) rfl) ?_
  refine Machine.steps_of_runs (Site.noted_runs byteLocale asciiPlatform 3 1 8 _ requiredRun.2) ?_
  rw [Function.update_of_ne (by decide)]

/-- From its registration on, a queue file can always be read, with a valid
policy state and its identity unchanged; its attempts never decrease, and only
a reconciliation or a release that has seen it writes that it is held or
released. -/
theorem hold_protocol {p : Platform} (hp : p.Lookup) (locale : Locale)
    (jobs : Thread → Job) (db : Database) (start : World) (now : Time)
    (input : QueueRegistration) (registered : QueueRecord)
    (hregister : Database.registerTx locale p now input db = .ok ((registered, true), start.db))
    (pool : Pool interface World) (hreachable : (machine locale p).Reachable start
      (fun thread => (jobs thread).program p) pool) :
    ∃ row record, pool.state.world.db.messages.find? input.queueID = some row ∧
      p.ValidPolicyState row ∧
      pool.state.world.db.loadQueueRecord locale p input.queueID = .ok record ∧
      registered.SameFile record ∧
      (∀ later, Relation.ReflTransGen (machine locale p).Step pool later →
        ∃ after, later.state.world.db.messages.find? input.queueID = some after ∧
          row.reconciliationAttempts ≤ after.reconciliationAttempts) ∧
      ∀ thread action answer after next written, pool.running thread = some (.call action next) →
        (machine locale p).Acts thread pool.state action answer after →
        after.world.db.messages.find? input.queueID = some written →
        written.holdState ≠ row.holdState → (written.holdState = .applied → ∃ operator mover code,
          jobs thread = .reconcile operator input.queueID ∧
          action = .finishReconciliation mover .applied code ∧
          Saw locale p (reconciliationStarted thread) true thread input.queueID pool.state) ∧
        (written.holdState = .released → ∃ operator confirmed mover code,
          jobs thread = .release operator input.queueID confirmed ∧
          action = .finishRelease mover .released code ∧
          Saw locale p (releaseStarted thread) false thread input.queueID pool.state) := by
  have hload : start.db.loadQueueRecord locale p input.queueID =
      .ok registered :=
    register_loads (transact_eq_ok_iff.mpr hregister)
  have hsound := (pool_sound hp locale jobs start).reachable hreachable
  obtain ⟨record, hrecord, hsame⟩ := stored_reachable hp hload hreachable
  obtain ⟨row, hrow, hvalid, _⟩ := loadQueueRecord_ok_iff.mp hrecord
  refine ⟨row, record, hrow, hvalid.toValidPolicyState, hrecord, hsame,
    fun later hsteps => attempts_le hsteps hrow, ?_⟩
  intro thread action answer after next written hrunning hacts hwritten hchanged
  have hallowed := hsound.permits hrunning
  have hwrites : action.Writes p input.queueID row written := by
    obtain ⟨found, hfound, hcases⟩ := (performs_keeps hacts.1 hrow).message
    cases hwritten.symm.trans hfound
    rcases hcases with rfl | ⟨hwrites, _⟩
    · exact absurd rfl hchanged
    · exact hwrites
  refine ⟨fun happlied => ?_, fun hreleased => ?_⟩
  · obtain ⟨mover, code, rfl, hmover⟩ := hwrites.of_applied happlied
    obtain ⟨⟨operator, hjob⟩, hsaw⟩ := hallowed.2 rfl
    rw [hmover] at hjob hsaw
    exact ⟨operator, mover, code, hjob, rfl, hsaw⟩
  · obtain ⟨mover, code, rfl, hmover⟩ := hwrites.of_released hreleased
    obtain ⟨⟨operator, confirmed, hjob⟩, hsaw⟩ := hallowed.2 rfl
    rw [hmover] at hjob hsaw
    exact ⟨operator, confirmed, mover, code, hjob, rfl, hsaw⟩

theorem hold_protocol_notice :
    Saw byteLocale asciiPlatform (reconciliationStarted 1) true 1
      (ascii "3bQzXk5Wn4z1v") reconciledPool.state := by
  obtain ⟨registered, hregister⟩ := noticeDatabase_registered
  obtain ⟨row, _, hrow, _, _, _, _, hwriters⟩ :=
    hold_protocol asciiPlatform_lookup byteLocale requiredJobs noticeBase
      noticeSite.world 1 _ registered hregister _ reconciledPool_reachable
  obtain ⟨hbefore, hafter⟩ := recordedRun_states
  have hrunning : reconciledPool.running 1 = some reconciledRun.1 := by
    simp only [reconciledPool, Function.update_self]
  rw [recordedRun] at hafter
  rw [reconciledPool_state] at hrow hwriters ⊢
  generalize reconciledPool.running = running at hrunning hwriters
  generalize reconciledRun = run at hrow hwriters hbefore hafter hrunning ⊢
  obtain ⟨program, site, events⟩ := run
  have hrowState : row.holdState = .reconciling := by
    rw [noticeState] at hbefore
    rw [show site.world.db.messages.find? (ascii "3bQzXk5Wn4z1v") = some row from hrow] at hbefore
    exact Option.some.inj hbefore
  cases program with
  | done value =>
    cases hbefore.symm.trans hafter
  | call action next =>
    obtain ⟨written, hwritten, happlied⟩ := Option.map_eq_some_iff.mp hafter
    obtain ⟨_, _, _, _, _, hsaw⟩ := (hwriters 1 action _
      (Site.instant (Site.noted byteLocale asciiPlatform 3 1 (site, events)
        action).2) next written hrunning ⟨site.respond_performs action, rfl⟩
      hwritten (by rw [happlied, hrowState]; decide)).1 happlied
    exact hsaw

end GotthMail
