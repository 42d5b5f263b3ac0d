/-
What a request of the extension administration does when nothing else runs.
Enable leaves a live process with the route behind it, except for a row that
already says so.
-/
import GotthMail.ExtensionService
import GotthMail.Alone

namespace GotthMail

open Bytes Framing Relational Calls

variable {site : ExtensionSite} {thread : Thread} {db : ExtensionDB} {active : Text}

/-- A live process of the instance, at its artifact and its revision. -/
def ExtensionWorld.Running (world : ExtensionWorld) (subject : Instance) : Prop :=
  ∃ process, world.supervisor.processes subject.instanceID = some process ∧
    process.serves subject = true ∧ world.supervisor.exited process.handle = false

abbrev ExtensionMoment := Moment extensionCalls ExtensionWorld

/-- The tables and the route are the given ones. -/
def Quiet (db : ExtensionDB) (active : Text) (state : ExtensionMoment) : Prop :=
  state.world.db = db ∧ state.world.supervisor.active = active

/-- The calls that write a table or move the route. -/
def ExtensionAction.Alters : ExtensionAction → Prop
  | .transact _ | .admitRouting _ | .revokeRouting _ => True
  | _ => False

section Calls

variable {admits : ExtensionMoment → Event extensionCalls → Prop} {state after : ExtensionMoment}

theorem Supervisor.remove_active (supervisor : Supervisor) (process : ExtensionProcess) :
    (supervisor.remove process).active = supervisor.active := by
  unfold Supervisor.remove
  split <;> rfl

theorem Quiet.acts {action : ExtensionAction} {answer : action.Answer}
    (hquiet : Quiet db active state)
    (hacts : (extensionMachine site).Acts thread state action answer after)
    (haction : ¬ action.Alters) : Quiet db active after := by
  have hperforms : site.Performs state.world action answer after.world := hacts.1
  obtain ⟨hdb, hactive⟩ := hquiet
  cases action with
  | transact | admitRouting | revokeRouting => exact absurd trivial haction
  | readInstance | readSlots | readSecrets | lookup | processExited | handshake
  | beginStop =>
    rw [Quiet, hperforms.2]
    exact ⟨hdb, hactive⟩
  | random | checkContext | prepare | connect | removeFiles | leave =>
    rw [Quiet, show after.world = state.world from hperforms]
    exact ⟨hdb, hactive⟩
  | launch subject secrets =>
    cases answer with
    | error reason =>
      rw [Quiet, show after.world = state.world from hperforms]
      exact ⟨hdb, hactive⟩
    | ok process =>
      rw [Quiet, hperforms.2]
      exact ⟨hdb, hactive⟩
  | register process =>
    cases answer <;>
    · rw [Quiet, hperforms.2]
      exact ⟨hdb, hactive⟩
  | terminate process =>
    cases answer with
    | error reason =>
      rw [Quiet, hperforms.2]
      exact ⟨hdb, hactive⟩
    | ok u =>
      rw [Quiet, show after.world = _ from hperforms]
      exact ⟨hdb, hactive⟩
  | remove process =>
    rw [Quiet, show after.world = _ from hperforms]
    exact ⟨hdb, (Supervisor.remove_active _ _).trans hactive⟩
  | crash handle =>
    rw [Quiet, show after.world = _ from hperforms]
    exact ⟨hdb, hactive⟩

end Calls

/-- How a request of the administration ends that nothing interrupts. -/
abbrev EndsIn (site : ExtensionSite)
    (admits : ExtensionMoment → Event extensionCalls → Prop) (thread : Thread)
    {α : Type} (task : ExtensionTask α) (state : ExtensionMoment)
    (post : Except ExtensionError α → ExtensionMoment → Prop) : Prop :=
  (extensionMachine site).Yields admits thread task state post

section Tasks

variable {admits : ExtensionMoment → Event extensionCalls → Prop} {subject : Instance}
  {secrets : List (Text × Text)} {state : ExtensionMoment}

theorem Quiet.task {α : Type} {task : ExtensionTask α} (hquiet : Quiet db active state)
    (havoids : task.run.Avoids ExtensionAction.Alters) :
    EndsIn site admits thread task state fun _ => Quiet db active :=
  Machine.alone_keeps (fun hquiet haction hacts => hquiet.acts hacts haction) havoids hquiet

/-- A call that leaves the world as it is. -/
theorem world_eq {action : ExtensionAction} {answer : action.Answer} {after : ExtensionMoment}
    (hacts : (extensionMachine site).Acts thread state action answer after) :
    site.Performs state.world action answer after.world :=
  hacts.1

theorem abandon_ends {process : ExtensionProcess} {reason : ExtensionError}
    {post : Unit → ExtensionMoment → Prop} (hquiet : Quiet db active state) :
    EndsIn site admits thread (Runtime.abandon process reason) state
      (Setting.Outcome post (Quiet db active)) := by
  refine .bind (.attempt (Machine.alone_call fun terminated after hacts _ => ?_))
  have hafter : Quiet db active after := hquiet.acts hacts not_false
  cases terminated with
  | error failure => exact hafter
  | ok u => exact .of hafter

theorem reuse_ends {existing : ExtensionProcess} (hquiet : Quiet db active state)
    (hprocess : state.world.supervisor.processes subject.instanceID = some existing) :
    EndsIn site admits thread (Runtime.reuse existing subject) state (Setting.Outcome
        (fun _ after => Quiet db active after ∧ after.world.Running subject)
        (Quiet db active)) := by
  refine .observe_bind (Machine.alone_call fun (exited : Bool) after hacts _ => .of ?_)
  obtain ⟨hexited, hworld⟩ := world_eq hacts
  have hafter : Quiet db active after := hquiet.acts hacts not_false
  cases hdemand : demand (existing.serves subject && !exited) .conflict with
  | error reason => exact hafter
  | ok u =>
    rw [demand_ok_iff, Bool.and_eq_true, Bool.not_eq_true'] at hdemand
    refine ⟨hafter, existing, ?_, hdemand.1, ?_⟩
    · rw [hworld, hprocess]
    · rw [hworld, ← hexited, hdemand.2]

theorem enlist_ends {process : ExtensionProcess} (hquiet : Quiet db active state)
    (hsubject : process.subject = subject)
    (hlive : state.world.supervisor.exited process.handle = false) :
    EndsIn site admits thread (Runtime.enlist process) state (Setting.Outcome
        (fun _ after => Quiet db active after ∧ after.world.Running subject)
        (Quiet db active)) := by
  refine .observe_bind (Machine.alone_call fun (registered : Bool) after hacts _ => ?_)
  have hafter : Quiet db active after := hquiet.acts hacts not_false
  cases registered with
  | false =>
    exact abandon_ends hafter
  | true =>
    obtain ⟨-, hworld⟩ := world_eq hacts
    refine .pure ⟨hafter, process, ?_, ?_, ?_⟩
    · rw [hworld, ← hsubject]
      exact Function.update_self _ _ _
    · rw [ExtensionProcess.serves, hsubject, beq_self_eq_true, beq_self_eq_true, Bool.and_true]
    · rw [hworld]
      exact hlive

theorem spawn_ends (hquiet : Quiet db active state) :
    EndsIn site admits thread (Runtime.spawn subject secrets) state (Setting.Outcome
        (fun _ after => Quiet db active after ∧ after.world.Running subject)
        (Quiet db active)) := by
  refine .of_bind (fun _ _ => ?_) (fun _ _ => hquiet)
  refine .bind (.attempt (Machine.alone_call fun prepared middle hacts _ => ?_))
  have hprepared : Quiet db active middle := hquiet.acts hacts not_false
  cases prepared with
  | error reason => exact hprepared
  | ok u =>
    refine .of_bind (fun _ _ => ?_) (fun _ _ => hprepared)
    refine .bind (.attempt (Machine.alone_call fun launched later hacts _ => ?_))
    have hlaunched : Quiet db active later := hprepared.acts hacts not_false
    cases launched with
    | error reason => exact hlaunched
    | ok process =>
      obtain ⟨rfl, hworld⟩ := world_eq hacts
      have hlive : later.world.supervisor.exited middle.world.supervisor.launched = false := by
        rw [hworld]
        exact Function.update_self _ _ _
      refine .observe_bind (Machine.alone_call fun connected after hacts _ => ?_)
      have hafter : Quiet db active after := hlaunched.acts hacts not_false
      have hsame : after.world = later.world := world_eq hacts
      cases connected with
      | error reason => exact abandon_ends hafter
      | ok u =>
        refine enlist_ends hafter rfl ?_
        rw [hsame]
        exact hlive

theorem start_ends (hquiet : Quiet db active state) :
    EndsIn site admits thread (Runtime.start subject secrets) state (Setting.Outcome
        (fun _ after => Quiet db active after ∧ after.world.Running subject)
        (Quiet db active)) := by
  refine .of_bind (fun _ _ => ?_) (fun _ _ => hquiet)
  refine .bind (.attempt (Machine.alone_call fun checked middle hacts _ => ?_))
  have hchecked : Quiet db active middle := hquiet.acts hacts not_false
  cases checked with
  | error reason => exact hchecked
  | ok u =>
    refine .observe_bind (Machine.alone_call fun existing after hacts _ => ?_)
    have hafter : Quiet db active after := hchecked.acts hacts not_false
    obtain ⟨hexisting, hworld⟩ := world_eq hacts
    cases existing with
    | none => exact spawn_ends hafter
    | some process =>
      refine reuse_ends hafter ?_
      rw [hworld, ← hexisting]

theorem Quiet.of_world {after : ExtensionMoment} (hquiet : Quiet db active state)
    (hworld : after.world = state.world) : Quiet db active after := by
  rw [Quiet, hworld]
  exact hquiet

theorem probe_ends : EndsIn site admits thread (Runtime.probe subject) state
    fun _ after => after.world = state.world := by
  refine .observe_bind (Machine.alone_call fun existing middle hacts _ => ?_)
  obtain ⟨-, hmiddle⟩ := world_eq hacts
  cases existing with
  | none => exact .of hmiddle
  | some process =>
    refine .observe_bind (Machine.alone_call fun (exited : Bool) later hacts _ => ?_)
    have hlater := (world_eq hacts).2.trans hmiddle
    refine .of_bind (fun _ _ => ?_) (fun _ _ => hlater)
    refine .bind (.attempt (Machine.alone_call fun answered after hacts _ => ?_))
    have hafter := (world_eq hacts).2.trans hlater
    cases answered with
    | error reason => exact hafter
    | ok u => exact .pure hafter

theorem stop_avoids (subject : Instance) :
    (Runtime.stop subject).run.Avoids ExtensionAction.Alters := by
  refine Task.avoids_bind ⟨id, fun _ => trivial⟩ fun process => ?_
  cases process with
  | none => trivial
  | some process =>
    refine Task.avoids_bind ⟨id, fun _ => trivial⟩ fun _ => ?_
    refine Task.avoids_bind ⟨id, fun _ => trivial⟩ fun _ => ?_
    exact ⟨id, fun _ => trivial⟩

theorem compensated_ends {α β : Type} {body : ExtensionTask α} {undo : ExtensionTask β}
    {post : Except ExtensionError α → ExtensionMoment → Prop}
    (hbody : EndsIn site admits thread body state fun result after =>
      match result with
      | .ok value => post (.ok value) after
      | .error reason => EndsIn site admits thread undo after fun _ =>
        post (.error reason)) :
    EndsIn site admits thread (Extensions.compensated body undo) state post := by
  refine .observe_bind (Setting.Safe.mono (fun result after hresult => ?_) hbody)
  cases result with
  | ok value => exact .pure hresult
  | error reason =>
    exact .observe_bind (Setting.Safe.mono (fun _ _ hpost => .of hpost) hresult)

theorem Answers.ok {α : Type} {expected : Except ExtensionError α} {value : α}
    (hanswers : Answers expected (.ok value)) : expected = .ok value := by
  rcases hanswers with hsame | ⟨reason, hreason⟩
  · exact hsame.symm
  · cases hreason

theorem get_ends {id : Text}
    {post : Except ExtensionError (Instance × List Text) → ExtensionMoment → Prop}
    (hok : ∀ found after, after.world = state.world →
      site.findInstance state.world.db id = .ok found →
      post (.ok (found, state.world.db.configuredSlots found.instanceID)) after)
    (herror : ∀ reason after, after.world = state.world → post (.error reason) after) :
    EndsIn site admits thread (Extensions.get id) state post := by
  refine .bind (.attempt (Machine.alone_call fun answer middle hacts _ => ?_))
  obtain ⟨hanswer, hmiddle⟩ := world_eq hacts
  cases answer with
  | error reason => exact herror reason middle hmiddle
  | ok found =>
    refine .bind (.attempt (Machine.alone_call fun answer after hacts _ => ?_))
    obtain ⟨hslots, hafter⟩ := world_eq hacts
    rw [hmiddle] at hafter hslots
    cases answer with
    | error reason => exact herror reason after hafter
    | ok slots =>
      cases hslots.ok
      exact .pure (hok found after hafter hanswer.ok)

theorem transact_ends {transaction : ExtensionTransaction}
    {post : Except ExtensionError Text → ExtensionMoment → Prop}
    (hpost : ∀ (reply : TransactionReply) after,
      (extensionMachine site).Acts thread state (.transact transaction) reply after →
      admits state ⟨thread, .transact transaction, reply⟩ → post reply.result after) :
    EndsIn site admits thread (Extensions.transact transaction) state post :=
  .observe_bind (Machine.alone_call fun reply after hacts hadmits =>
    .of (hpost reply after hacts hadmits))

/-- A transaction that succeeds has been committed. -/
theorem committed_of_ok {transaction : ExtensionTransaction} {reply : TransactionReply}
    {world after : ExtensionWorld} {key : Text}
    (hperforms : site.Performs world (.transact transaction) reply after)
    (hok : reply.result = .ok key) :
    ∃ next, site.execute reply.time world.db transaction = .ok next ∧
      after = { world with db := next } := by
  rcases hperforms with ⟨-, -, hnext⟩ | ⟨-, ⟨reason, hreason⟩, -⟩
  · exact hnext
  · cases hok.symm.trans hreason

end Tasks

section Enable

variable {admits : ExtensionMoment → Event extensionCalls → Prop} {state : ExtensionMoment}
  {id : Text} {found : Instance} {slots : List Text}

/-- The row says that the instance is enabled and routed. -/
def ExtensionWorld.Marked (world : ExtensionWorld) (key : Text) : Prop :=
  ∃ row, world.db.instances.find? key = some row ∧ row.enabled = true ∧ row.routed = true

/-- The route leads to a live process at the artifact and revision of the row. -/
def ExtensionWorld.Routes (world : ExtensionWorld) (key : Text) : Prop :=
  ∃ row, world.db.instances.find? key = some row ∧ world.Running row ∧ world.supervisor.active = key

theorem admitRouting_ends {db : ExtensionDB} {active : Text}
    (hquiet : Quiet db active state) (hrunning : state.world.Running found) :
    EndsIn site admits thread (Runtime.admitRouting found) state
      (Setting.Outcome (fun _ after => Quiet db found.instanceID after ∧
          after.world.Running found ∧ (active = [] ∨ active = found.instanceID))
        (Quiet db active)) := by
  refine .attempt (Machine.alone_call fun answer after hacts _ => ?_)
  have hdecides : Decides state.world after.world
    (state.world.supervisor.admitRouting found.instanceID) answer := world_eq hacts
  cases haccept : state.world.supervisor.admitRouting found.instanceID with
  | error reason =>
    rw [haccept] at hdecides
    obtain ⟨rfl, hworld⟩ := hdecides
    rw [Setting.Outcome, Quiet, hworld]
    exact hquiet
  | ok next =>
    rw [haccept] at hdecides
    obtain ⟨rfl, hworld⟩ := hdecides
    simp only [Supervisor.admitRouting, Effect.except_bind_ok_iff, demand_ok_iff,
      Bool.or_eq_true, beq_iff_eq] at haccept
    obtain ⟨_, -, _, hactive, hreturn⟩ := haccept
    cases hreturn
    rw [hquiet.2] at hactive
    refine ⟨?_, ?_, hactive⟩
    · rw [Quiet, hworld]
      exact ⟨hquiet.1, rfl⟩
    · rw [hworld]
      exact hrunning

/-- The route is taken away from the instance that has it. -/
theorem revokeRouting_ends {db : ExtensionDB} (hquiet : Quiet db found.instanceID state) :
    EndsIn site admits thread (Runtime.revokeRouting found) state
      (Setting.Outcome (fun _ after => Quiet db [] after ∧
        after.world.supervisor = state.world.supervisor.route []) fun _ => False) := by
  refine .attempt (Machine.alone_call fun answer after hacts _ => ?_)
  have hdecides : Decides state.world after.world
    (state.world.supervisor.revokeRouting found.instanceID) answer := world_eq hacts
  have hrevoke : state.world.supervisor.revokeRouting found.instanceID =
      .ok (state.world.supervisor.route []) := by
    simp [Supervisor.revokeRouting, hquiet.2, demand]
  rw [hrevoke] at hdecides
  obtain ⟨rfl, hworld⟩ := hdecides
  rw [Setting.Outcome, Quiet, hworld]
  exact ⟨⟨hquiet.1, rfl⟩, rfl⟩

theorem withdraw_ends {db : ExtensionDB} (hquiet : Quiet db found.instanceID state) :
    EndsIn site admits thread (Extensions.withdraw found) state fun _ => Quiet db [] := by
  refine .observe_bind (Setting.Safe.mono (fun result after hresult => ?_)
    (revokeRouting_ends hquiet))
  cases result with
  | error reason => exact hresult.elim
  | ok u => exact hresult.1.task (stop_avoids found)

theorem probeHealthy_ends : EndsIn site admits thread (Extensions.probeHealthy found)
    state fun _ after => after.world = state.world := by
  refine .bind (probe_ends.mono fun result after hafter => ?_)
  cases result with
  | error reason => exact hafter
  | ok health => exact .of_bind (fun _ _ => .pure hafter) (fun _ _ => hafter)

theorem enable_routes {row : Instance} {db next : ExtensionDB} {code : Text}
    {supervisor : Supervisor} (hrow : db.instances.find? (uuidText id) = some row)
    (hrunning : ExtensionWorld.Running ⟨db, supervisor⟩ row)
    (hactive : supervisor.active = uuidText id)
    (hrecord : db.recordEnable id row.configurationRev code = .ok next) :
    ExtensionWorld.Routes ⟨next, supervisor⟩ (uuidText id) ∧
      ExtensionWorld.Marked ⟨next, supervisor⟩ (uuidText id) := by
  obtain ⟨changed, hchanged, -, hfind, -⟩ := ExtensionDB.revise_ok hrecord
  cases hrow.symm.trans hchanged
  have hnext := hfind (uuidText id)
  rw [if_pos rfl] at hnext
  exact ⟨⟨_, hnext, hrunning, hactive⟩, _, hnext, rfl, rfl⟩

/-- The route leads to the instance, and its row says so. -/
def ExtensionWorld.Up (world : ExtensionWorld) (key : Text) : Prop :=
  world.Routes key ∧ world.Marked key

/-- What has to be enough for a request that fails: the tables are as they were,
or the instance is up after all.  A commit whose answer is lost is not admitted,
or nothing is asked after it. -/
structure Fallback (admits : ExtensionMoment → Event extensionCalls → Prop)
    (thread : Thread) (db : ExtensionDB) (active key : Text)
    (failed : ExtensionMoment → Prop) : Prop where
  quiet : ∀ after route, Quiet db route after → route = active ∨ route = [] → failed after
  up : ∀ after, after.world.Up key → failed after
  lost : ∀ moment transaction (reply : TransactionReply) reason,
    admits moment ⟨thread, .transact transaction, reply⟩ →
    reply.result = .error reason → reply.committed = true → ∀ after, failed after

section Failure

variable {failed : ExtensionMoment → Prop} {code : Text} {row : Instance}

theorem recordEnable_ends (hfallback : Fallback admits thread db active (uuidText id) failed)
    (hquiet : Quiet db (uuidText id) state) (hrow : db.instances.find? (uuidText id) = some row)
    (hkey : found.instanceID = uuidText id)
    (hrevision : found.configurationRev = row.configurationRev)
    (hrunning : state.world.Running row) :
    EndsIn site admits thread (Extensions.compensated
        (Extensions.transact (.recordEnable id found.configurationRev code))
        (Extensions.withdraw found)) state
      (Setting.Outcome (fun _ after => after.world.Up (uuidText id)) failed) := by
  refine compensated_ends (transact_ends fun reply after hacts hadmits => ?_)
  cases hresult : reply.result with
  | ok key =>
    obtain ⟨next, hrecord, hafter⟩ := committed_of_ok (world_eq hacts) hresult
    rw [hquiet.1] at hrecord
    change after.world.Up (uuidText id)
    rw [hafter]
    exact enable_routes hrow hrunning hquiet.2 (hrevision ▸ hrecord)
  | error reason =>
    rcases world_eq hacts with ⟨hcommitted, -⟩ | ⟨-, -, hafter⟩
    · exact .any fun _ final => hfallback.lost _ _ _ _ hadmits hresult hcommitted final
    · rw [← hkey] at hquiet
      exact (withdraw_ends (hquiet.of_world hafter)).mono
        fun _ final hfinal => hfallback.quiet final _ hfinal (.inr rfl)

theorem routeAndRecord_ends (hfallback : Fallback admits thread db active (uuidText id) failed)
    (hquiet : Quiet db active state) (hrow : db.instances.find? (uuidText id) = some row)
    (hfound : site.scanInstance row = .ok found) (hrunning : state.world.Running row) :
    EndsIn site admits thread (Extensions.routeAndRecord id found code) state
      (Setting.Outcome (fun _ after => after.world.Up (uuidText id)) failed) := by
  have hkey : row.instanceID = uuidText id := Table.find?_key hrow
  obtain ⟨metadata, configuration, -, -, rfl⟩ := scanInstance_ok hfound
  refine .bind (compensated_ends ((admitRouting_ends hquiet hrunning).mono
    fun admitted middle hadmitted => ?_))
  cases admitted with
  | error reason =>
    exact (hadmitted.task (stop_avoids _)).mono
      fun _ final hfinal => hfallback.quiet final _ hfinal (.inl rfl)
  | ok u =>
    obtain ⟨hmiddle, hlive, -⟩ := hadmitted
    rw [show _ = uuidText id from hkey] at hmiddle
    refine .bind ((recordEnable_ends hfallback hmiddle hrow hkey rfl hlive).mono
      fun recorded later hlater => ?_)
    cases recorded with
    | error reason => exact hlater
    | ok key =>
      have hup : later.world.Up (uuidText id) := hlater
      refine .bind (get_ends (fun _ after hafter _ => .pure ?_)
        (fun _ after hafter => hfallback.up after ?_)) <;>
      · rw [← hafter] at hup
        exact hup

/-- Bringing an instance up ends with the route on its process, or with the tables
as they were. -/
theorem bringUp_ends {slots : List Text}
    (hfallback : Fallback admits thread state.world.db state.world.supervisor.active
      (uuidText id) failed)
    (hfound : site.findInstance state.world.db id = .ok found) :
    EndsIn site admits thread (Extensions.bringUp id found slots) state
      (Setting.Outcome (fun _ after => after.world.Up (uuidText id)) failed) := by
  obtain ⟨row, hrow, hscan⟩ := locateInstance_ok hfound
  obtain ⟨metadata, configuration, -, -, hsame⟩ := scanInstance_ok hscan
  have hstart : Quiet state.world.db state.world.supervisor.active state := ⟨rfl, rfl⟩
  refine .of_bind (fun _ _ => ?_) (fun _ _ => hfallback.quiet _ _ hstart (.inl rfl))
  refine .bind (.attempt (Machine.alone_call fun answer middle hacts _ => ?_))
  have hmiddle := hstart.acts hacts not_false
  cases answer with
  | error reason => exact hfallback.quiet _ _ hmiddle (.inl rfl)
  | ok secrets =>
    refine .bind ((start_ends hmiddle).mono fun started after hstarted => ?_)
    cases started with
    | error reason => exact hfallback.quiet _ _ hstarted (.inl rfl)
    | ok u =>
      obtain ⟨hafter, hrunning⟩ := hstarted
      refine .bind (compensated_ends (probeHealthy_ends.mono fun probed later hlater => ?_))
      have hquiet := hafter.of_world hlater
      cases probed with
      | error reason =>
        exact (hquiet.task (stop_avoids _)).mono
          fun _ final hfinal => hfallback.quiet final _ hfinal (.inl rfl)
      | ok health =>
        rw [← hlater, hsame] at hrunning
        exact routeAndRecord_ends hfallback hquiet hrow hscan hrunning

end Failure

/-- Enable leaves the world alone when the row says that the instance is up, and
brings it up otherwise. -/
theorem enable_ends {actor : ActorRef} :
    EndsIn site (fun _ _ => True) thread (Extensions.enable actor id) state
      (Setting.Outcome (fun _ after =>
        (state.world.Marked (uuidText id) → after.world = state.world) ∧
        (¬ state.world.Marked (uuidText id) → after.world.Routes (uuidText id)))
        fun _ => True) := by
  refine .of_bind (fun _ _ => .bind (get_ends (fun found middle hmiddle hfound => ?_)
    (fun _ _ _ => trivial))) (fun _ _ => trivial)
  obtain ⟨row, hrow, hscan⟩ := locateInstance_ok hfound
  obtain ⟨metadata, configuration, -, -, hsame⟩ := scanInstance_ok hscan
  dsimp only
  split
  · next hflags =>
      rw [hsame, Bool.and_eq_true] at hflags
      exact .pure ⟨fun _ => hmiddle, fun hunmarked =>
        absurd ⟨row, hrow, hflags.1, hflags.2⟩ hunmarked⟩
  · next hflags =>
      have hunmarked : ¬ state.world.Marked (uuidText id) := by
        rintro ⟨marked, hmarked, henabled, hrouted⟩
        cases hrow.symm.trans hmarked
        rw [hsame, henabled, hrouted] at hflags
        exact hflags rfl
      refine (bringUp_ends ⟨fun _ _ _ _ => trivial, fun _ _ => trivial,
        fun _ _ _ _ _ _ _ _ => trivial⟩ (hmiddle ▸ hfound)).mono ?_
      intro result after hafter
      cases result with
      | error reason => trivial
      | ok returned =>
        exact ⟨fun hmarked => absurd hmarked hunmarked, fun _ => hafter.1⟩

end Enable

/-- The environment of a test: numbers are kept as they are written. -/
def plainExtensions : ExtensionSite where
  platform := asciiPlatform
  numbers := plainNumbers
  key := List.replicate 32 7

def webhookMetadata : ExtensionMetadata where
  schema := metadataSchema
  fields :=
    [⟨ascii "webhook.endpoint", ascii "HTTPS webhook endpoint", .string, true, some 1,
        some 2048, none, []⟩,
      ⟨ascii "webhook.timeout-seconds", ascii "Request timeout in seconds", .integer,
        true, some 1, some 30, some (.number (ascii "10")), []⟩,
      ⟨runtimeSlot, ascii "Webhook HMAC key", .secret, true, none, none, none, []⟩]

def webhookID : Text := ascii "00000000-0000-4000-8000-000000000001"

/-- The request to install the webhook extension under an artifact pin. -/
def webhookRequest (digit : UInt8) : InstallRequest where
  instanceID := webhookID
  extensionID := ascii "gotth.mail.notification.webhook"
  repository := ascii "https://github.com/gotthboard/gotth-extension-webhook"
  artifactPin := ascii "sha256:" ++ List.replicate 64 digit
  manifestDigest := List.replicate 64 digit
  grantDigest := List.replicate 64 digit
  sessionDigest := List.replicate 64 digit
  capabilities := runtimeCapabilities
  interfaces := [ascii "gotth.mail.interface.notification"]
  secretSlots := [runtimeSlot]
  metadata := webhookMetadata
  availableUpdate := []
  correlationID := []

def webhookConfiguration : List Member :=
  [(ascii "webhook.endpoint", .string (ascii "https://hooks.example.test/a")),
    (ascii "webhook.timeout-seconds", .number (ascii "10"))]

/-- A configured and tested instance, up or not according to its row. -/
def webhookRow (up : Bool) : Instance :=
  { (webhookRequest 97).instance with
    configuration := webhookConfiguration
    configurationRev := 2
    testedRevision := some 2
    lifecycle := .stopped
    enabled := up
    routed := up }

def webhookDB (up : Bool) : ExtensionDB :=
  match ExtensionDB.empty.insertInstance (webhookRow up) with
  | .ok db => db.putSecret webhookID runtimeSlot (List.replicate 32 97)
  | .error _ => .empty

def webhookOperator : ActorRef := ⟨ascii "user", ascii "operator"⟩

def runResult {α : Type} (run : Except ExtensionError α × ExtensionMoment) : Bool × Text × Bool :=
  (run.1.toOption.isSome, run.2.world.supervisor.active,
    (run.2.world.supervisor.processes webhookID).isSome)

def enableRun (up : Bool) : Except ExtensionError Instance × ExtensionMoment :=
  (Extensions.enable webhookOperator webhookID).run.run
    (plainExtensions.note (fun _ => false) [] 1 0) ⟨⟨webhookDB up, .empty⟩, []⟩

set_option maxRecDepth 100000 in
theorem enableRun_results :
    runResult (enableRun true) = (true, [], false) ∧
      runResult (enableRun false) = (true, webhookID, true) := by
  decide +kernel

theorem enableRun_runs (up : Bool) :
    Runs ((extensionMachine plainExtensions).Acts 0)
      (Extensions.enable webhookOperator webhookID).run
      ⟨⟨webhookDB up, .empty⟩, []⟩ (.done (enableRun up).1) (enableRun up).2 :=
  Runs.of_run id (plainExtensions.note_acts (fun _ => false) [] 1 0) _ _

/-- When Enable returns without an error, the route leads to a live process at the
artifact and revision of the row, exactly when it did so before for a row that was
marked as enabled and routed. -/
theorem enable_routes_iff (site : ExtensionSite) (thread : Thread) (actor : ActorRef)
    (id : Text) (state final : ExtensionMoment) (returned : Instance)
    (hruns : Runs ((extensionMachine site).Acts thread)
      (Extensions.enable actor id).run state (.done (.ok returned)) final) :
    final.world.Routes (uuidText id) ↔
      (state.world.Marked (uuidText id) → state.world.Routes (uuidText id)) := by
  have hends : EndsIn site (fun _ _ => True) thread (Extensions.enable actor id)
    state _ := enable_ends
  obtain ⟨hmarked, hunmarked⟩ := Setting.Safe.of_runs (Machine.runs_alone hruns) hends
  by_cases hbefore : state.world.Marked (uuidText id)
  · rw [hmarked hbefore]
    exact ⟨fun hroutes _ => hroutes, fun hroutes => hroutes hbefore⟩
  · exact ⟨fun _ hmarked => absurd hmarked hbefore, fun _ => hunmarked hbefore⟩

theorem enable_routes_iff_tested :
    ∃ final returned, Runs ((extensionMachine plainExtensions).Acts 0)
      (Extensions.enable webhookOperator webhookID).run
      ⟨⟨webhookDB false, .empty⟩, []⟩ (.done (.ok returned)) final ∧
      final.world.Routes (uuidText webhookID) := by
  have hruns := enableRun_runs false
  have hresult := congrArg Prod.fst enableRun_results.2
  have hdown : ((webhookDB false).instances.find? (uuidText webhookID)).any
      (fun row => row.enabled) = false := by
    decide +kernel
  generalize enableRun false = run at hruns hresult
  obtain ⟨result, final⟩ := run
  cases result with
  | error reason => cases hresult
  | ok returned =>
    refine ⟨final, returned, hruns, ?_⟩
    refine (enable_routes_iff _ _ _ _ _ _ _ hruns).mpr ?_
    rintro ⟨row, hrow, henabled, -⟩
    rw [show (webhookDB false).instances.find? (uuidText webhookID) = some row
      from hrow, Option.any_some, henabled] at hdown
    cases hdown

/-- After a restart of the control plane, Enable returns without an error for a
row that is marked, and nothing runs. -/
theorem enable_leaves_down :
    ∃ final returned, Runs ((extensionMachine plainExtensions).Acts 0)
      (Extensions.enable webhookOperator webhookID).run
      ⟨⟨webhookDB true, .empty⟩, []⟩ (.done (.ok returned)) final ∧
      final.world.supervisor.processes webhookID = none ∧
      ¬ final.world.Routes (uuidText webhookID) := by
  have hruns := enableRun_runs true
  have hresult := enableRun_results.1
  generalize enableRun true = run at hruns hresult
  obtain ⟨result, final⟩ := run
  simp only [runResult, Prod.mk.injEq] at hresult
  obtain ⟨hok, hactive, hprocess⟩ := hresult
  cases result with
  | error reason => cases hok
  | ok returned =>
    refine ⟨final, returned, hruns, ?_, ?_⟩
    · exact Option.not_isSome_iff_eq_none.mp (by rw [hprocess]; decide)
    · rintro ⟨row, -, -, hroute⟩
      rw [hactive] at hroute
      exact absurd hroute (by decide)

end GotthMail
