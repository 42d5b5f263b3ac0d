/-
Only a tested revision is enabled.  The record of a test names nothing but a
revision; while no instance is installed twice, a revision determines what was
tested, for the processes as well as for the requests that are under way.
-/
import GotthMail.ExtensionAlone

namespace GotthMail

open Bytes Framing Ranges Relational Calls

variable {site : ExtensionSite} {thread : Thread} {state after : ExtensionMoment}
  {action : ExtensionAction} {jobs : Thread → ExtensionJob} {key : Text}

/-- The exchange commits the installation of an instance. -/
def InstallsKey (key : Text) : (action : ExtensionAction) → action.Answer → Prop
  | .transact transaction, reply => reply.committed = true ∧ transaction.Installs key
  | _, _ => False

def InstalledBefore (key : Text) (history : List (Event extensionCalls)) : Prop :=
  ∃ event ∈ history, InstallsKey key event.action event.answer

/-- The exchange commits the record of a test. -/
def TestsKey (key : Text) (revision : Nat) : (action : ExtensionAction) → action.Answer → Prop
  | .transact transaction, reply =>
    reply.committed = true ∧ transaction.Tests key revision
  | _, _ => False

def InstalledOnce : List (Event extensionCalls) → Prop
  | [] => True
  | event :: older =>
    (∀ key, InstallsKey key event.action event.answer → ¬ InstalledBefore key older) ∧
      InstalledOnce older

/-- A process got the artifact, the configuration and the secrets of an instance. -/
structure SameContents (site : ExtensionSite) (view : ExtensionView)
    (subject : Instance) (secrets : List (Text × Text)) : Prop where
  artifact : subject.artifactPin = view.1.artifactPin
  configuration : site.decodeConfiguration view.1.configuration = some subject.configuration
  slots : subject.secretSlots = view.1.secretSlots
  secrets : secrets = view.1.secretSlots.filterMap fun slot =>
    (view.2 slot).map fun value => (slot, value)

/-- What was read of an instance is not newer than its row, and the same as long as
the revision is the same. -/
def Current (site : ExtensionSite) (view : Option ExtensionView) (subject : Instance)
    (secrets : List (Text × Text)) : Prop :=
  ∀ found, view = some found → subject.configurationRev ≤ found.1.configurationRev ∧
      (subject.configurationRev = found.1.configurationRev →
        SameContents site found subject secrets)

theorem Current.evolves {site : ExtensionSite} {before after : Option ExtensionView}
    {subject : Instance} {secrets : List (Text × Text)} {installs : Prop}
    {tests : Nat → Prop} (hcurrent : Current site before subject secrets)
    (hevolves : Evolves installs tests before after) (hinstalls : ¬ installs) :
    Current site after subject secrets := by
  cases hevolves with
  | same => exact hcurrent
  | installed hinstalled => exact absurd hinstalled hinstalls
  | removed => exact nofun
  | revised hidle hnext hrevision htested =>
    rintro found ⟨⟩
    obtain ⟨hle, -⟩ := hcurrent _ rfl
    dsimp only at hle ⊢
    exact ⟨by omega, by omega⟩
  | tested | enabled | disabled =>
    rintro found ⟨⟩
    obtain ⟨hle, hsame⟩ := hcurrent _ rfl
    refine ⟨hle, fun hrevision => ?_⟩
    obtain ⟨hartifact, hconfiguration, hslots, hsecrets⟩ := hsame hrevision
    exact ⟨hartifact, hconfiguration, hslots, hsecrets⟩

/-- What a thread knows of an instance that it has read. -/
structure Fit (site : ExtensionSite) (subject : Instance)
    (secrets : List (Text × Text)) (state : ExtensionMoment) : Prop where
  installed : InstalledBefore subject.instanceID state.history
  current : InstalledOnce state.history →
    Current site (state.world.db.view subject.instanceID) subject secrets

theorem Decides.db {world next : ExtensionWorld}
    {outcome : Except ExtensionError Supervisor} {reply : Except ExtensionError Unit}
    (hdecides : Decides world next outcome reply) : next.db = world.db := by
  cases outcome <;> rw [hdecides.2]

section Steps

variable {answer : action.Answer}
  (hacts : (extensionMachine site).Acts thread state action answer after)

include hacts

theorem InstalledBefore.acts (hbefore : InstalledBefore key state.history) :
    InstalledBefore key after.history := by
  obtain ⟨event, hmem, hinstalls⟩ := hbefore
  exact ⟨event, by rw [hacts.2]; exact List.mem_cons_of_mem _ hmem, hinstalls⟩

theorem InstalledOnce.before (honce : InstalledOnce after.history) :
    InstalledOnce state.history := by
  rw [hacts.2] at honce
  exact honce.2

/-- A call changes an instance in one of the ways that a transaction has. -/
theorem view_evolves (key : Text) :
    Evolves (InstallsKey key action answer) (fun revision => TestsKey key revision action answer)
      (state.world.db.view key) (after.world.db.view key) := by
  have hperforms : site.Performs state.world action answer after.world := hacts.1
  have hquiet : ¬ action.Alters → after.world.db = state.world.db := fun haction =>
    (Quiet.acts (⟨rfl, rfl⟩ : Quiet _ _ state) hacts haction).1
  cases action with
  | transact transaction =>
    rcases hperforms with ⟨hcommitted, -, next, hexecute, hafter⟩ | ⟨-, -, hafter⟩
    · rw [hafter]
      exact (execute_evolves hexecute key).mono (fun hinstalls => ⟨hcommitted, hinstalls⟩)
        (fun _ htests => ⟨hcommitted, htests⟩)
    · rw [hafter]
      exact .same _
  | admitRouting | revokeRouting =>
    rw [Decides.db hperforms]
    exact .same _
  | _ =>
    rw [hquiet not_false]
    exact .same _

theorem Fit.acts {subject : Instance} {secrets : List (Text × Text)}
    (hfit : Fit site subject secrets state) : Fit site subject secrets after := by
  refine ⟨hfit.installed.acts hacts, fun honce => ?_⟩
  refine (hfit.current (honce.before hacts)).evolves (view_evolves hacts _) ?_
  intro hinstalls
  rw [hacts.2] at honce
  exact honce.1 _ hinstalls hfit.installed

end Steps

/-- A test request has had a healthy answer from a process. -/
def ProbedIn (jobs : Thread → ExtensionJob) (process : ExtensionProcess)
    (history : List (Event extensionCalls)) : Prop :=
  ∃ thread actor id subject, jobs thread = .test actor id ∧
    (⟨thread, ExtensionAction.handshake process subject,
      (Except.ok () : Except ExtensionError Unit)⟩ : Event extensionCalls) ∈ history

/-- What holds of the row of an instance. -/
structure Vetted (site : ExtensionSite) (jobs : Thread → ExtensionJob)
    (history : List (Event extensionCalls)) (view : ExtensionView) : Prop where
  routed : view.1.routed = true → view.1.enabled = true
  enabled : view.1.enabled = true → view.1.testedRevision = some view.1.configurationRev
  tested : InstalledOnce history → view.1.testedRevision = some view.1.configurationRev →
    ∃ process, ProbedIn jobs process history ∧ process.subject.instanceID = view.1.instanceID ∧
      SameContents site view process.subject process.secrets

/-- What holds in every state. -/
structure Sane (site : ExtensionSite) (jobs : Thread → ExtensionJob)
    (state : ExtensionMoment) : Prop where
  installed : ∀ key view, state.world.db.view key = some view → InstalledBefore key state.history
  vetted : ∀ key view, state.world.db.view key = some view → Vetted site jobs state.history view
  processes : ∀ key process, state.world.supervisor.processes key = some process →
    process.subject.instanceID = key ∧ Fit site process.subject process.secrets state
  probed : ∀ process, ProbedIn jobs process state.history →
    Fit site process.subject process.secrets state

/-- The calls that have to know what they name. -/
def Justified (site : ExtensionSite) (jobs : Thread → ExtensionJob) (_ : Thread)
    (state : ExtensionMoment) : ExtensionAction → Prop
  | .register process => Fit site process.subject process.secrets state
  | .handshake process _ => Fit site process.subject process.secrets state
  | .transact (.recordTest id revision _) => ∃ process, ProbedIn jobs process state.history ∧
        process.subject.instanceID = uuidText id ∧ process.subject.configurationRev = revision
  | _ => True

section Invariant

variable {answer : action.Answer}
  (hacts : (extensionMachine site).Acts thread state action answer after)

include hacts in
theorem ProbedIn.acts {process : ExtensionProcess}
    (hprobed : ProbedIn jobs process state.history) : ProbedIn jobs process after.history := by
  obtain ⟨tester, actor, id, subject, hjob, hmem⟩ := hprobed
  refine ⟨tester, actor, id, subject, hjob, ?_⟩
  rw [hacts.2]
  exact List.mem_cons_of_mem _ hmem

variable {view : ExtensionView}

include hacts in
theorem Vetted.acts (hvetted : Vetted site jobs state.history view) :
    Vetted site jobs after.history view where
  routed := hvetted.routed
  enabled := hvetted.enabled
  tested honce htested := by
    obtain ⟨process, hprobed, hsame⟩ := hvetted.tested (honce.before hacts) htested
    exact ⟨process, hprobed.acts hacts, hsame⟩

/-- An idle row that has not been tested. -/
theorem Vetted.untested {history : List (Event extensionCalls)}
    (hidle : view.1.idle = true) (htested : view.1.testedRevision = none) :
    Vetted site jobs history view := by
  simp only [Instance.idle, Bool.and_eq_true, Bool.not_eq_true'] at hidle
  refine ⟨fun hrouted => ?_, fun henabled => ?_, fun _ hsome => ?_⟩
  · cases hidle.2.symm.trans hrouted
  · cases hidle.1.symm.trans henabled
  · cases htested.symm.trans hsome

theorem Decides.processes {world next : ExtensionWorld}
    {reply : Except ExtensionError Unit} {outcome : Except ExtensionError Supervisor}
    (houtcome : ∀ supervisor, outcome = .ok supervisor →
      ∃ active, supervisor = world.supervisor.route active)
    (hdecides : Decides world next outcome reply) :
    next.supervisor.processes key = world.supervisor.processes key := by
  cases outcome with
  | error reason => rw [hdecides.2]
  | ok supervisor =>
    obtain ⟨active, rfl⟩ := houtcome supervisor rfl
    rw [hdecides.2]
    rfl

theorem Supervisor.admitRouting_ok {supervisor next : Supervisor}
    (haccept : supervisor.admitRouting key = .ok next) :
    next = supervisor.route key := by
  simp only [Supervisor.admitRouting, Effect.except_bind_ok_iff] at haccept
  obtain ⟨_, -, _, -, hreturn⟩ := haccept
  cases hreturn
  rfl

theorem Supervisor.revokeRouting_ok {supervisor next : Supervisor}
    (hrevoke : supervisor.revokeRouting key = .ok next) :
    next = supervisor.route [] := by
  simp only [Supervisor.revokeRouting, Effect.except_bind_ok_iff] at hrevoke
  obtain ⟨_, -, hreturn⟩ := hrevoke
  cases hreturn
  rfl

theorem Supervisor.remove_processes {supervisor : Supervisor}
    {process found : ExtensionProcess} {key : Text}
    (hfound : (supervisor.remove process).processes key = some found) :
    supervisor.processes key = some found := by
  unfold Supervisor.remove at hfound
  split at hfound
  · by_cases hkey : key = process.subject.instanceID
    · subst hkey
      dsimp only at hfound
      rw [Function.update_self] at hfound
      cases hfound
    · dsimp only at hfound
      rwa [Function.update_of_ne hkey] at hfound
  · exact hfound

include hacts in
/-- The processes of the map were there before, or one has been entered. -/
theorem processes_cases {process : ExtensionProcess}
    (hprocess : after.world.supervisor.processes key = some process) :
    state.world.supervisor.processes key = some process ∨
      action = .register process ∧ process.subject.instanceID = key := by
  have hperforms : site.Performs state.world action answer after.world := hacts.1
  cases action with
  | register entered =>
    cases answer with
    | false =>
      rw [hperforms.2] at hprocess
      exact .inl hprocess
    | true =>
      rw [hperforms.2] at hprocess
      by_cases hkey : key = entered.subject.instanceID
      · subst hkey
        rw [show (Supervisor.register _ entered).processes _ = _ from
          Function.update_self _ _ _] at hprocess
        cases hprocess
        exact .inr ⟨rfl, rfl⟩
      · refine .inl ?_
        rwa [show (Supervisor.register _ entered).processes key = _ from
          Function.update_of_ne hkey _ _] at hprocess
  | transact transaction =>
    rcases hperforms with ⟨-, -, next, -, hafter⟩ | ⟨-, -, hafter⟩ <;>
    · rw [hafter] at hprocess
      exact .inl hprocess
  | readInstance | readSlots | readSecrets | lookup | processExited | handshake
  | beginStop =>
    rw [hperforms.2] at hprocess
    exact .inl hprocess
  | random | checkContext | prepare | connect | removeFiles | leave | crash =>
    rw [show after.world = _ from hperforms] at hprocess
    exact .inl hprocess
  | remove =>
    rw [show after.world = _ from hperforms] at hprocess
    exact .inl (Supervisor.remove_processes hprocess)
  | launch | terminate =>
    cases answer <;>
    first
    | rw [hperforms.2] at hprocess
      exact .inl hprocess
    | rw [show after.world = _ from hperforms] at hprocess
      exact .inl hprocess
  | admitRouting id =>
    rw [Decides.processes (fun _ hok => ⟨id, Supervisor.admitRouting_ok hok⟩) hperforms] at hprocess
    exact .inl hprocess
  | revokeRouting id =>
    rw [Decides.processes (fun _ hok => ⟨[], Supervisor.revokeRouting_ok hok⟩)
      hperforms] at hprocess
    exact .inl hprocess

/-- An instance with a row was there before, or has just been installed. -/
theorem Evolves.installs {installs : Prop} {tests : Nat → Prop}
    {before next : Option ExtensionView} (hevolves : Evolves installs tests before next)
    (hnext : next = some view) : installs ∨ ∃ old, before = some old := by
  cases hevolves with
  | same => exact .inr ⟨view, hnext⟩
  | installed hinstalls => exact .inl hinstalls
  | removed => cases hnext
  | revised | tested | enabled | disabled => exact .inr ⟨_, rfl⟩

include hacts in
theorem Sane.installed_acts (hsane : Sane site jobs state)
    (hview : after.world.db.view key = some view) : InstalledBefore key after.history := by
  rcases (view_evolves hacts key).installs hview with hinstalls | ⟨old, hold⟩
  · exact ⟨_, by rw [hacts.2]; exact List.mem_cons_self, hinstalls⟩
  · exact (hsane.installed key old hold).acts hacts

/-- A test that is recorded was of what the row holds. -/
theorem Sane.tested_acts (hsane : Sane site jobs state)
    (hjustified : Justified site jobs thread state action) {row : Instance}
    {secrets : Text → Option Text} (hview : state.world.db.view key = some (row, secrets))
    (htests : TestsKey key row.configurationRev action answer)
    (honce : InstalledOnce state.history) :
    ∃ process, ProbedIn jobs process state.history ∧ process.subject.instanceID = key ∧
      SameContents site (row, secrets) process.subject process.secrets := by
  cases action with
  | transact transaction =>
    obtain ⟨-, id, code, rfl, rfl⟩ := htests
    obtain ⟨process, hprobed, hkey, hrevision⟩ := hjustified
    refine ⟨process, hprobed, hkey, ?_⟩
    have hcurrent := (hsane.probed process hprobed).current honce
    rw [hkey] at hcurrent
    exact (hcurrent _ hview).2 hrevision
  | _ => cases htests

theorem ExtensionDB.view_id {db : ExtensionDB} (hview : db.view key = some view) :
    view.1.instanceID = key := by
  obtain ⟨row, hrow, rfl⟩ := Option.map_eq_some_iff.mp hview
  exact (Table.find?_eq_some_iff.mp hrow).2

include hacts

theorem Sane.vetted_acts (hsane : Sane site jobs state)
    (hjustified : Justified site jobs thread state action)
    (hview : after.world.db.view key = some view) : Vetted site jobs after.history view := by
  have hevolves := view_evolves hacts key
  rw [hview] at hevolves
  generalize hbefore : state.world.db.view key = before at hevolves
  cases hevolves with
  | same => exact (hsane.vetted key view hbefore).acts hacts
  | installed _ hidle htested => exact .untested hidle htested
  | revised _ hnext _ htested => exact .untested hnext htested
  | @tested row secrets code htests hidle =>
    simp only [Instance.idle, Bool.and_eq_true, Bool.not_eq_true'] at hidle
    refine ⟨fun hrouted => ?_, fun henabled => ?_, fun honce _ => ?_⟩
    · cases hidle.2.symm.trans hrouted
    · cases hidle.1.symm.trans henabled
    · obtain ⟨process, hprobed, hkey, hsame⟩ :=
        hsane.tested_acts hjustified hbefore htests (honce.before hacts)
      refine ⟨process, hprobed.acts hacts, ?_, ?_⟩
      · exact hkey.trans (ExtensionDB.view_id hbefore).symm
      · exact ⟨hsame.artifact, hsame.configuration, hsame.slots, hsame.secrets⟩
  | @enabled row secrets code hidle htested =>
    have hvetted := (hsane.vetted key _ hbefore).acts hacts
    refine ⟨fun _ => rfl, fun _ => htested, fun honce hrevision => ?_⟩
    obtain ⟨process, hprobed, hkey, hsame⟩ := hvetted.tested honce hrevision
    exact ⟨process, hprobed, hkey, hsame.artifact, hsame.configuration, hsame.slots, hsame.secrets⟩
  | @disabled row secrets =>
    have hvetted := (hsane.vetted key _ hbefore).acts hacts
    refine ⟨fun hrouted => (Bool.false_ne_true hrouted).elim, fun henabled =>
      (Bool.false_ne_true henabled).elim, fun honce hrevision => ?_⟩
    obtain ⟨process, hprobed, hkey, hsame⟩ := hvetted.tested honce hrevision
    exact ⟨process, hprobed, hkey, hsame.artifact, hsame.configuration, hsame.slots, hsame.secrets⟩

theorem Sane.acts (hsane : Sane site jobs state)
    (hjustified : Justified site jobs thread state action) : Sane site jobs after where
  installed _ _ hview := hsane.installed_acts hacts hview
  vetted _ _ hview := hsane.vetted_acts hacts hjustified hview
  processes key process hprocess := by
    rcases processes_cases hacts hprocess with hold | ⟨rfl, hkey⟩
    · obtain ⟨hkey, hfit⟩ := hsane.processes key process hold
      exact ⟨hkey, hfit.acts hacts⟩
    · have hfit : Fit site process.subject process.secrets state := hjustified
      exact ⟨hkey, hfit.acts hacts⟩
  probed process hprobed := by
    obtain ⟨tester, actor, id, subject, hjob, hmem⟩ := hprobed
    rw [hacts.2] at hmem
    rcases List.mem_cons.mp hmem with hnew | hold
    · cases hnew
      have hfit : Fit site process.subject process.secrets state := hjustified
      exact hfit.acts hacts
    · exact (hsane.probed process ⟨tester, actor, id, subject, hjob, hold⟩).acts hacts

end Invariant

/-- The thread has had a healthy answer from a process of an instance at its
revision. -/
def Greeted (thread : Thread) (found : Instance) (state : ExtensionMoment) : Prop :=
  ∃ process subject, process.subject.instanceID = found.instanceID ∧
    process.subject.configurationRev = found.configurationRev ∧
    (⟨thread, ExtensionAction.handshake process subject,
      (Except.ok () : Except ExtensionError Unit)⟩ : Event extensionCalls) ∈ state.history

/-- The calls that have to know something. -/
def ExtensionAction.Guarded : ExtensionAction → Prop
  | .register _ | .handshake _ _ | .transact (.recordTest _ _ _) => True
  | _ => False

section Tasks

variable {found : Instance} {secrets : List (Text × Text)} {id : Text}
  {fact : ExtensionMoment → Prop}

variable {α : Type} {actor : ActorRef}

theorem justified_of_unguarded {action : ExtensionAction} (haction : ¬ action.Guarded) :
    Justified site jobs thread state action := by
  cases action with
  | register | handshake => exact absurd trivial haction
  | transact transaction =>
    cases transaction with
    | recordTest => exact absurd trivial haction
    | _ => trivial
  | _ => trivial

theorem sane_lasting : (extensionMachine site).Lasting (Justified site jobs) (Sane site jobs) :=
  ⟨fun hsane hjustified hacts => hsane.acts hacts hjustified, fun hsane => hsane⟩

theorem fit_lasting :
    (extensionMachine site).Lasting (Justified site jobs) (Fit site found secrets) :=
  ⟨fun hfit _ hacts => hfit.acts hacts, fun hfit => hfit⟩

theorem greeted_lasting :
    (extensionMachine site).Lasting (Justified site jobs) (Greeted thread found) := by
  refine ⟨?_, fun hgreeted => hgreeted⟩
  rintro other state action answer after ⟨process, subject, hid, hrevision, hmem⟩ - hacts
  refine ⟨process, subject, hid, hrevision, ?_⟩
  rw [hacts.2]
  exact List.mem_cons_of_mem _ hmem

/-- The rules under which the requests run. -/
abbrev testing (site : ExtensionSite) (jobs : Thread → ExtensionJob)
    (thread : Thread) : Setting extensionCalls ExtensionMoment :=
  (extensionMachine site).setting (Justified site jobs) thread

theorem unguarded_keeps {task : ExtensionTask α}
    (hfact : (extensionMachine site).Lasting (Justified site jobs) fact)
    (havoids : task.run.Avoids ExtensionAction.Guarded) :
    (testing site jobs thread).Keeps fact task :=
  hfact.keeps_task (fun _ _ _ haction => justified_of_unguarded haction) havoids

/-- The thread has read an instance. -/
def Familiar (site : ExtensionSite) (jobs : Thread → ExtensionJob) (found : Instance)
    (state : ExtensionMoment) : Prop :=
  Sane site jobs state ∧ ∃ secrets, Fit site found secrets state

theorem familiar_lasting :
    (extensionMachine site).Lasting (Justified site jobs) (Familiar site jobs found) :=
  sane_lasting.and (.any fun _ => fit_lasting)

theorem Sane.fit_found (hsane : Sane site jobs state)
    (hfound : site.findInstance state.world.db id = .ok found) :
    found.instanceID = uuidText id ∧ ∃ secrets, Fit site found secrets state := by
  obtain ⟨row, hrow, hscan⟩ := locateInstance_ok hfound
  obtain ⟨metadata, configuration, -, hconfiguration, rfl⟩ := scanInstance_ok hscan
  have hkey : row.instanceID = uuidText id := (Table.find?_eq_some_iff.mp hrow).2
  have hview := ExtensionDB.view_of_find hrow
  refine ⟨hkey, row.secretSlots.filterMap fun slot =>
    (state.world.db.secretIn (uuidText id) slot).map fun value => (slot, value), ?_, ?_⟩
  · exact hkey ▸ hsane.installed _ _ hview
  · rintro - stored hstored
    rw [show ({ row with metadata, configuration } : Instance).instanceID = _ from hkey,
      hview] at hstored
    cases hstored
    exact ⟨le_rfl, fun _ => ⟨rfl, hconfiguration, rfl, rfl⟩⟩

theorem readInstance_familiar : (testing site jobs thread).Triple (Sane site jobs)
    (askExtensions (.readInstance id))
    fun (answer : Except ExtensionError Instance) state => Sane site jobs state ∧
      ∀ found, answer = .ok found →
        found.instanceID = uuidText id ∧ ∃ secrets, Fit site found secrets state := by
  refine sane_lasting.learns (fun answer => ?_) (fun _ _ => trivial) ?_
  · refine ⟨?_, fun hlearned => hlearned⟩
    intro other state action reply after hlearned _ hacts found hfound
    obtain ⟨hid, secrets, hfit⟩ := hlearned found hfound
    exact ⟨hid, secrets, hfit.acts hacts⟩
  · intro state answer after hsane hacts found hfound
    obtain ⟨hanswers, hworld⟩ := world_eq hacts
    have hjustified : Justified site jobs thread state (.readInstance id) := trivial
    refine (hsane.acts hacts hjustified).fit_found ?_
    subst hfound
    rw [hworld]
    exact hanswers.ok

theorem get_familiar : (testing site jobs thread).Attempts (Sane site jobs)
    (Extensions.get id) (fun result state =>
      Familiar site jobs result.1 state ∧ result.1.instanceID = uuidText id)
    (Sane site jobs) := by
  refine .bind (.attempt_or readInstance_familiar fun _ _ hread => hread.1) ?_
  rintro found state ⟨hsane, hfound⟩
  obtain ⟨hid, hfit⟩ := hfound found rfl
  refine Setting.Attempts.bind ((unguarded_keeps familiar_lasting ?_).weaken
    (fun _ _ hstate => hstate) fun _ hstate => hstate.1) ?_ state ⟨hsane, hfit⟩
  · exact ⟨not_false, fun _ => trivial⟩
  · exact fun slots => .pure fun _ hstate => ⟨hstate, hid⟩

/-- The secrets are those of the revision that has been read, if it is still the
revision of the row. -/
theorem Fit.read_secrets (hfit : Fit site found secrets state) :
    Fit site found (state.world.db.readSecrets found.instanceID found.secretSlots)
      state := by
  refine ⟨hfit.installed, fun honce view hview => ?_⟩
  obtain ⟨hle, hsame⟩ := hfit.current honce view hview
  refine ⟨hle, fun hrevision => ?_⟩
  obtain ⟨hartifact, hconfiguration, hslots, -⟩ := hsame hrevision
  obtain ⟨row, hrow, rfl⟩ := Option.map_eq_some_iff.mp hview
  refine ⟨hartifact, hconfiguration, hslots, ?_⟩
  rw [ExtensionDB.readSecrets, hslots]

theorem readSecrets_fit : (testing site jobs thread).Attempts (Familiar site jobs found)
    (Extensions.readSecrets found) (fun secrets state =>
      Sane site jobs state ∧ Fit site found secrets state)
    (Familiar site jobs found) := by
  have hread : (testing site jobs thread).Triple (Familiar site jobs found)
      (askExtensions (.readSecrets found.instanceID found.secretSlots))
      fun (answer : Except ExtensionError (List (Text × Text))) state =>
        Familiar site jobs found state ∧
          ∀ secrets, answer = .ok secrets → Fit site found secrets state := by
    refine familiar_lasting.learns (fun answer => ?_) (fun _ _ => trivial) ?_
    · exact ⟨fun hlearned _ hacts secrets hsecrets =>
        (hlearned secrets hsecrets).acts hacts, fun hlearned => hlearned⟩
    · rintro state answer after ⟨-, old, hfit⟩ hacts secrets rfl
      obtain ⟨hanswers, hworld⟩ := world_eq hacts
      have hsecrets := (hfit.acts hacts).read_secrets
      rw [hworld] at hsecrets
      cases hanswers.ok
      exact hsecrets
  exact .weaken (.attempt_or hread fun _ _ hstate => hstate.1)
    (fun secrets _ hstate => ⟨hstate.1.1, hstate.2 secrets rfl⟩) fun _ hstate => hstate

theorem abandon_unguarded (process : ExtensionProcess) (reason : ExtensionError) :
    (Runtime.abandon process reason).run.Avoids ExtensionAction.Guarded :=
  Task.avoids_bind ⟨not_false, fun _ => trivial⟩ fun _ => trivial

theorem stop_unguarded (subject : Instance) :
    (Runtime.stop subject).run.Avoids ExtensionAction.Guarded := by
  refine Task.avoids_bind ⟨not_false, fun _ => trivial⟩ fun process => ?_
  cases process with
  | none => trivial
  | some process =>
    refine Task.avoids_bind ⟨not_false, fun _ => trivial⟩ fun _ => ?_
    refine Task.avoids_bind ⟨not_false, fun _ => trivial⟩ fun _ => ?_
    exact ⟨not_false, fun _ => trivial⟩

theorem observe_avoids {α : Type} {bad : ExtensionAction → Prop}
    {program : Program extensionCalls α} (havoids : program.Avoids bad) :
    (Task.observe program : ExtensionTask α).run.Avoids bad :=
  Program.Avoids.bind havoids fun _ => trivial

/-- What is known of an instance for which a process is started. -/
abbrev Informed (site : ExtensionSite) (jobs : Thread → ExtensionJob) (found : Instance)
    (secrets : List (Text × Text)) (state : ExtensionMoment) : Prop :=
  Sane site jobs state ∧ Fit site found secrets state

theorem informed_lasting : (extensionMachine site).Lasting (Justified site jobs)
    (Informed site jobs found secrets) :=
  sane_lasting.and fit_lasting

theorem enlist_keeps {process : ExtensionProcess} (hsubject : process.subject = found)
    (hsecrets : process.secrets = secrets) :
    (testing site jobs thread).Keeps (Informed site jobs found secrets)
      (Runtime.enlist process) := by
  have hregister : (testing site jobs thread).Triple (Informed site jobs found secrets)
      (askExtensions (.register process)) fun (_ : Bool) => Informed site jobs found secrets := by
    refine .perform ?_ ?_ fun _ => informed_lasting.stable
    · rintro state ⟨-, hfit⟩
      subst hsubject hsecrets
      exact hfit
    · rintro state answer after ⟨hsane, hfit⟩ hacts
      refine ⟨hsane.acts hacts ?_, hfit.acts hacts⟩
      subst hsubject hsecrets
      exact hfit
  refine .bind (.observe hregister) fun (registered : Bool) => ?_
  cases registered with
  | false => exact unguarded_keeps informed_lasting (abandon_unguarded process .conflict)
  | true => exact .pure fun _ hstate => hstate

theorem spawn_keeps :
    (testing site jobs thread).Keeps (Informed site jobs found secrets)
      (Runtime.spawn found secrets) := by
  refine .bind (unguarded_keeps informed_lasting trivial) fun _ => ?_
  refine .bind (unguarded_keeps informed_lasting ⟨not_false, fun _ => trivial⟩) fun _ => ?_
  refine .bind (unguarded_keeps informed_lasting trivial) fun _ => ?_
  have hlaunch : (testing site jobs thread).Triple (Informed site jobs found secrets)
      (askExtensions (.launch found secrets))
      fun (answer : Except ExtensionError ExtensionProcess) state =>
        Informed site jobs found secrets state ∧ ∀ process, answer = .ok process →
          process.subject = found ∧ process.secrets = secrets := by
    refine informed_lasting.learns (fun _ => .const _) (fun _ _ => trivial) ?_
    rintro state answer after - hacts process rfl
    obtain ⟨rfl, -⟩ := world_eq hacts
    exact ⟨rfl, rfl⟩
  refine .bind (.attempt_or hlaunch fun _ _ hstate => hstate.1) ?_
  rintro process state ⟨hinformed, hprocess⟩
  obtain ⟨hsubject, hsecrets⟩ := hprocess process rfl
  refine Setting.Attempts.bind (unguarded_keeps informed_lasting ?_) ?_ state hinformed
  · exact ⟨not_false, fun _ => trivial⟩
  · intro connected
    cases connected with
    | error reason =>
      exact unguarded_keeps informed_lasting (abandon_unguarded process reason)
    | ok u => exact enlist_keeps hsubject hsecrets

theorem start_keeps :
    (testing site jobs thread).Keeps (Informed site jobs found secrets)
      (Runtime.start found secrets) := by
  refine .bind (unguarded_keeps informed_lasting trivial) fun _ => ?_
  refine .bind (unguarded_keeps informed_lasting ⟨not_false, fun _ => trivial⟩) fun _ => ?_
  refine .bind (unguarded_keeps informed_lasting ⟨not_false, fun _ => trivial⟩) ?_
  intro existing
  cases existing with
  | none => exact spawn_keeps
  | some process =>
    exact unguarded_keeps informed_lasting
      (Task.avoids_bind ⟨not_false, fun _ => trivial⟩ fun _ => trivial)

/-- An instance is started with the secrets that it has. -/
theorem launch_keeps {rest : ExtensionTask α} {post : α → ExtensionMoment → Prop}
    (hrest : (testing site jobs thread).Attempts (Sane site jobs) rest post (Sane site jobs)) :
    (testing site jobs thread).Attempts (Familiar site jobs found)
      (Extensions.readSecrets found >>= fun secrets =>
        Runtime.start found secrets >>= fun _ => rest) post (Sane site jobs) :=
  .bind (readSecrets_fit.weaken (fun _ _ hstate => hstate) fun _ hstate => hstate.1)
    fun _ => .bind (start_keeps.weaken (fun _ _ hstate => hstate.1)
      fun _ hstate => hstate.1) fun _ => hrest

/-- The process that is asked for its health is one that the supervisor knows. -/
theorem handshake_greeted {process : ExtensionProcess}
    (hid : process.subject.instanceID = found.instanceID)
    (hrevision : process.subject.configurationRev = found.configurationRev) :
    (testing site jobs thread).Attempts (Informed site jobs process.subject process.secrets)
      (Task.attempt (askExtensions (.handshake process found)))
      (fun _ state => Sane site jobs state ∧ Greeted thread found state) (Sane site jobs) := by
  have hgreet : (testing site jobs thread).Triple
      (Informed site jobs process.subject process.secrets)
      (askExtensions (.handshake process found)) fun (answer : Except ExtensionError Unit) state =>
        Sane site jobs state ∧ (answer = .ok () → Greeted thread found state) := by
    refine .perform (fun _ hstate => hstate.2) ?_ fun answer => ?_
    · rintro state answer after ⟨hsane, hfit⟩ hacts
      have hjustified : Justified site jobs thread state (.handshake process found) := hfit
      refine ⟨hsane.acts hacts hjustified, ?_⟩
      rintro rfl
      refine ⟨process, found, hid, hrevision, ?_⟩
      rw [hacts.2]
      exact List.mem_cons_self
    · refine (sane_lasting.and ⟨?_, fun hlearned => hlearned⟩).stable
      exact fun hlearned hjustified hacts hok =>
        greeted_lasting.acts (hlearned hok) hjustified hacts
  exact .weaken (.attempt_or hgreet fun _ _ hstate => hstate.1)
    (fun _ _ hstate => ⟨hstate.1, hstate.2 rfl⟩) fun _ hstate => hstate

theorem lookup_informed : (testing site jobs thread).Triple (Sane site jobs)
    (askExtensions (.lookup found.instanceID))
    fun (answer : Option ExtensionProcess) state => Sane site jobs state ∧
      ∀ process, answer = some process → process.subject.instanceID = found.instanceID ∧
          Fit site process.subject process.secrets state := by
  refine sane_lasting.learns (fun answer => ?_) (fun _ _ => trivial) ?_
  · refine ⟨?_, fun hlearned => hlearned⟩
    intro other state action reply after hlearned _ hacts process hprocess
    obtain ⟨hid, hfit⟩ := hlearned process hprocess
    exact ⟨hid, hfit.acts hacts⟩
  · rintro state answer after hsane hacts process rfl
    obtain ⟨hanswer, -⟩ := world_eq hacts
    obtain ⟨hid, hfit⟩ := hsane.processes _ process hanswer.symm
    exact ⟨hid, hfit.acts hacts⟩

theorem probe_greeted : (testing site jobs thread).Attempts (Sane site jobs) (Runtime.probe found)
    (fun _ state => Sane site jobs state ∧ Greeted thread found state) (Sane site jobs) := by
  refine .bind (.observe lookup_informed) ?_
  rintro (_ | process) state ⟨hsane, hlookup⟩
  · exact hsane
  · obtain ⟨hid, hfit⟩ := hlookup process rfl
    have hfailed : ∀ later, Informed site jobs process.subject process.secrets later →
        Sane site jobs later := fun _ hstate => hstate.1
    refine Setting.Attempts.bind ((unguarded_keeps informed_lasting ?_).weaken
      (fun _ _ hstate => hstate) hfailed) ?_ state ⟨hsane, hfit⟩
    · exact ⟨not_false, fun _ => trivial⟩
    · intro (exited : Bool)
      refine .bind (.of (fun _ _ hdemand hstate => (⟨hstate, hdemand⟩ : _ ∧ _)) hfailed) ?_
      rintro u later ⟨hstate, hdemand⟩
      rw [demand_ok_iff, Bool.and_eq_true, ExtensionProcess.serves, Bool.and_eq_true,
        beq_iff_eq, beq_iff_eq] at hdemand
      have hrevision : process.subject.configurationRev = found.configurationRev := hdemand.1.2
      exact Setting.Attempts.bind (handshake_greeted hid hrevision)
        (fun _ => .pure fun _ hpost => hpost) later hstate

theorem stop_keeps (hfact : (extensionMachine site).Lasting (Justified site jobs) fact) :
    (testing site jobs thread).Keeps fact (Runtime.stop found) :=
  unguarded_keeps hfact (stop_unguarded found)

theorem probeAndStop_greeted : (testing site jobs thread).Attempts (Sane site jobs)
    (Extensions.probeAndStop found)
    (fun _ state => Sane site jobs state ∧ Greeted thread found state) (Sane site jobs) := by
  refine .bind (.observe probe_greeted) fun probed => ?_
  cases probed with
  | error reason =>
    refine .bind (.observe (stop_keeps sane_lasting)) fun stopped => ?_
    exact fun state hstate => by cases stopped <;> exact hstate
  | ok health =>
    refine .bind (.observe (stop_keeps (sane_lasting.and greeted_lasting))) fun stopped => ?_
    have hstopped : ∀ state, Setting.Outcome
        (fun (_ : Unit) state => Sane site jobs state ∧ Greeted thread found state)
        (fun state => Sane site jobs state ∧ Greeted thread found state) stopped state →
        Sane site jobs state ∧ Greeted thread found state := by
      intro state hstate
      cases stopped <;> exact hstate
    refine .bind (.of (fun _ state _ hstate => hstopped state hstate)
      fun state hstate => (hstopped state hstate).1) fun _ => ?_
    refine .bind (.of (fun _ _ _ hstate => hstate) fun _ hstate => hstate.1) fun _ => ?_
    refine .bind (.of (fun _ _ _ hstate => hstate) fun _ hstate => hstate.1) fun _ => ?_
    exact .pure fun _ hstate => hstate

theorem get_unguarded (id : Text) : (Extensions.get id).run.Avoids ExtensionAction.Guarded :=
  Task.avoids_bind ⟨not_false, fun _ => trivial⟩ fun _ =>
    Task.avoids_bind ⟨not_false, fun _ => trivial⟩ fun _ => trivial

theorem transact_unguarded {transaction : ExtensionTransaction}
    (htransaction : ¬ ExtensionAction.Guarded (.transact transaction)) :
    (Extensions.transact transaction).run.Avoids ExtensionAction.Guarded :=
  Task.avoids_bind ⟨htransaction, fun _ => trivial⟩ fun _ => trivial

theorem recordTest_keeps {code : Text} (hjob : jobs thread = .test actor id)
    (hid : found.instanceID = uuidText id) :
    (testing site jobs thread).Attempts
      (fun state => Sane site jobs state ∧ Greeted thread found state)
      (Extensions.transact (.recordTest id found.configurationRev code))
      (fun _ => Sane site jobs) (Sane site jobs) := by
  have hrecord : (testing site jobs thread).Triple
      (fun state => Sane site jobs state ∧ Greeted thread found state)
      (askExtensions (.transact (.recordTest id found.configurationRev code)))
      fun (_ : TransactionReply) => Sane site jobs := by
    have hallowed : ∀ state, Sane site jobs state ∧ Greeted thread found state →
        Justified site jobs thread state
          (.transact (.recordTest id found.configurationRev code)) := by
      rintro state ⟨-, process, subject, hsame, hrevision, hmem⟩
      exact ⟨process, ⟨thread, actor, id, subject, hjob, hmem⟩, hsame.trans hid, hrevision⟩
    refine .perform hallowed ?_ fun _ => sane_lasting.stable
    intro state answer after hstate hacts
    exact hstate.1.acts hacts (hallowed state hstate)
  exact .bind (.observe hrecord) fun reply =>
    .of (fun _ _ _ hstate => hstate) fun _ hstate => hstate

theorem test_keeps (hjob : jobs thread = .test actor id) :
    (testing site jobs thread).Keeps (Sane site jobs) (Extensions.test actor id) := by
  refine .bind (unguarded_keeps sane_lasting trivial) fun _ => ?_
  refine .bind get_familiar ?_
  rintro ⟨found, slots⟩ state ⟨hfamiliar, hid⟩
  refine Setting.Attempts.bind (.of (fun _ _ _ hstate => hstate)
    fun _ hstate => hstate.1) (fun _ => ?_) state hfamiliar
  refine launch_keeps ?_
  refine .bind probeAndStop_greeted fun health => ?_
  refine .bind (recordTest_keeps hjob hid) fun key => ?_
  exact unguarded_keeps sane_lasting (Task.avoids_bind (get_unguarded key) fun _ => trivial)

theorem compensated_keeps {β : Type} {body : ExtensionTask α} {undo : ExtensionTask β}
    {post : α → ExtensionMoment → Prop} {pre middle : ExtensionMoment → Prop}
    (hbody : (testing site jobs thread).Attempts pre body post middle)
    (hundo : (testing site jobs thread).Attempts middle undo (fun _ => fact) fact) :
    (testing site jobs thread).Attempts pre (Extensions.compensated body undo) post
      fact := by
  refine .bind (.observe hbody) fun result => ?_
  cases result with
  | ok value => exact .pure fun _ hstate => hstate
  | error reason =>
    refine .bind (.observe hundo) fun outcome => ?_
    exact fun state hstate => by cases outcome <;> exact hstate

theorem bringUp_keeps {slots : List Text} :
    (testing site jobs thread).Attempts (Familiar site jobs found)
      (Extensions.bringUp id found slots) (fun _ => Sane site jobs) (Sane site jobs) := by
  refine .bind (.of (fun _ _ _ hstate => hstate) fun _ hstate => hstate.1) fun _ => ?_
  refine launch_keeps ?_
  have hprobe : (testing site jobs thread).Keeps (Sane site jobs)
      (Extensions.probeHealthy found) := by
    refine .bind (probe_greeted.weaken (fun _ _ hstate => hstate.1)
      fun _ hstate => hstate) fun health => ?_
    exact unguarded_keeps sane_lasting (Task.avoids_bind trivial fun _ => trivial)
  refine .bind (compensated_keeps hprobe (stop_keeps sane_lasting)) fun health => ?_
  refine .bind (compensated_keeps (unguarded_keeps sane_lasting
    ⟨not_false, fun _ => trivial⟩) (stop_keeps sane_lasting)) fun _ => ?_
  refine .bind (compensated_keeps (unguarded_keeps sane_lasting
    (transact_unguarded not_false)) (unguarded_keeps sane_lasting
      (Task.avoids_bind (observe_avoids ⟨not_false, fun _ => trivial⟩)
        fun _ => stop_unguarded found))) fun _ => ?_
  exact unguarded_keeps sane_lasting (Task.avoids_bind (get_unguarded id) fun _ => trivial)

theorem enable_keeps :
    (testing site jobs thread).Keeps (Sane site jobs) (Extensions.enable actor id) := by
  refine .bind (unguarded_keeps sane_lasting trivial) fun _ => ?_
  refine .bind get_familiar ?_
  rintro ⟨found, slots⟩ state ⟨hfamiliar, -⟩
  dsimp only
  split
  · exact hfamiliar.1
  · exact bringUp_keeps state hfamiliar

theorem reroute_unguarded (found : Instance) :
    (Extensions.reroute found).run.Avoids ExtensionAction.Guarded := by
  unfold Extensions.reroute
  split
  · exact ⟨not_false, fun _ => trivial⟩
  · trivial

theorem unroute_unguarded (found : Instance) :
    (Extensions.unroute found).run.Avoids ExtensionAction.Guarded := by
  unfold Extensions.unroute
  split
  · exact ⟨not_false, fun _ => trivial⟩
  · trivial

theorem restore_keeps : (testing site jobs thread).Attempts (Familiar site jobs found)
    (Extensions.restore found) (fun _ => Sane site jobs) (Sane site jobs) := by
  refine launch_keeps ?_
  exact unguarded_keeps sane_lasting (reroute_unguarded found)

theorem takeDown_keeps : (testing site jobs thread).Attempts (Familiar site jobs found)
    (Extensions.takeDown id found) (fun _ => Sane site jobs) (Sane site jobs) := by
  have hfailed : ∀ state, Familiar site jobs found state → Sane site jobs state :=
    fun _ hstate => hstate.1
  refine .bind ((unguarded_keeps familiar_lasting (unroute_unguarded found)).weaken
    (fun _ _ hstate => hstate) hfailed) fun _ => ?_
  refine .bind ((compensated_keeps (stop_keeps familiar_lasting)
    (unguarded_keeps familiar_lasting (reroute_unguarded found))).weaken
    (fun _ _ hstate => hstate) hfailed) fun _ => ?_
  refine .bind (compensated_keeps (unguarded_keeps familiar_lasting
    (transact_unguarded not_false)) restore_keeps) fun _ => ?_
  exact .after hfailed (unguarded_keeps sane_lasting
    (Task.avoids_bind (get_unguarded id) fun _ => trivial))

theorem disable_keeps :
    (testing site jobs thread).Keeps (Sane site jobs) (Extensions.disable actor id) := by
  refine .bind (unguarded_keeps sane_lasting trivial) fun _ => ?_
  refine .bind get_familiar ?_
  rintro ⟨found, slots⟩ state ⟨hfamiliar, -⟩
  dsimp only
  split
  · exact hfamiliar.1
  · exact takeDown_keeps state hfamiliar

theorem transactAndGet_unguarded {transaction : ExtensionTransaction}
    (htransaction : ¬ ExtensionAction.Guarded (.transact transaction)) :
    (Extensions.transactAndGet transaction).run.Avoids ExtensionAction.Guarded :=
  Task.avoids_bind (transact_unguarded htransaction) fun key =>
    Task.avoids_bind (get_unguarded key) fun _ => trivial

theorem getIdle_unguarded (id : Text) :
    (Extensions.getIdle id).run.Avoids ExtensionAction.Guarded :=
  Task.avoids_bind (get_unguarded id) fun _ => Task.avoids_bind trivial fun _ => trivial

theorem createPreview_unguarded (actor : ActorRef) (found : Instance)
    (operation : PreviewOperation) (payload : PreviewPayload) (secrets : Mapping Text Text) :
    (Extensions.createPreview actor found operation payload secrets).run.Avoids
      ExtensionAction.Guarded :=
  Task.avoids_bind trivial fun _ => Task.avoids_bind ⟨not_false, fun _ => trivial⟩ fun _ =>
      Task.avoids_bind (transact_unguarded not_false) fun _ => trivial

/-- The requests that neither start nor test an instance. -/
theorem task_unguarded (job : ExtensionJob) (htest : ∀ actor id, job ≠ .test actor id)
    (henable : ∀ actor id, job ≠ .enable actor id)
    (hdisable : ∀ actor id, job ≠ .disable actor id) :
    (job.task site).run.Avoids ExtensionAction.Guarded := by
  cases job with
  | test actor id => exact absurd rfl (htest actor id)
  | enable actor id => exact absurd rfl (henable actor id)
  | disable actor id => exact absurd rfl (hdisable actor id)
  | install actor request =>
    refine Task.avoids_bind (Task.avoids_bind trivial fun _ =>
      Task.avoids_bind trivial fun _ => ?_) fun _ => trivial
    exact transactAndGet_unguarded not_false
  | previewConfigure actor id input =>
    refine Task.avoids_bind (Task.avoids_bind (getIdle_unguarded id) fun found =>
      Task.avoids_bind trivial fun _ => Task.avoids_bind trivial fun _ => ?_) fun _ => trivial
    exact createPreview_unguarded _ _ _ _ _
  | previewUpdate actor id input =>
    refine Task.avoids_bind (Task.avoids_bind (getIdle_unguarded id) fun found =>
      Task.avoids_bind trivial fun _ => ?_) fun _ => trivial
    exact createPreview_unguarded _ _ _ _ _
  | previewDeleteSecrets actor id | previewUninstall actor id =>
    refine Task.avoids_bind (Task.avoids_bind (getIdle_unguarded id) fun found => ?_)
      fun _ => trivial
    exact createPreview_unguarded _ _ _ _ _
  | applyConfigure | applyUpdate | applyDeleteSecrets =>
    exact Task.avoids_bind (transactAndGet_unguarded not_false) fun _ => trivial
  | applyUninstall =>
    exact Task.avoids_bind (transact_unguarded not_false) fun _ => trivial
  | rollback actor id confirmation =>
    refine Task.avoids_bind (Task.avoids_bind trivial fun _ => ?_) fun _ => trivial
    exact transactAndGet_unguarded not_false
  | crash handle => exact observe_avoids ⟨not_false, fun _ => trivial⟩

theorem task_keeps : (testing site jobs thread).Keeps (Sane site jobs)
    ((jobs thread).task site) := by
  generalize hjob : jobs thread = job
  cases job with
  | test actor id => exact .bind (test_keeps hjob) fun _ => .pure fun _ hstate => hstate
  | enable actor id => exact .bind enable_keeps fun _ => .pure fun _ hstate => hstate
  | disable actor id => exact .bind disable_keeps fun _ => .pure fun _ hstate => hstate
  | _ => exact unguarded_keeps sane_lasting (task_unguarded _ nofun nofun nofun)

theorem program_keeps : (testing site jobs thread).Triple (Sane site jobs)
    ((jobs thread).program site) fun _ _ => True := by
  refine .bind task_keeps fun result => ?_
  exact .perform (fun _ _ => trivial) (fun _ _ => trivial) fun _ => .const True

theorem sane_start : Sane site jobs ⟨⟨.empty, .empty⟩, []⟩ where
  installed _ _ hview := by cases hview
  vetted _ _ hview := by cases hview
  processes _ _ hprocess := by cases hprocess
  probed := by
    rintro _ ⟨_, _, _, _, _, hmem⟩
    cases hmem

theorem sane_of_reachable {pool : Pool extensionCalls ExtensionWorld}
    (hreachable : (extensionMachine site).Reachable ⟨.empty, .empty⟩
      (fun thread => (jobs thread).program site) pool) :
    Sane site jobs pool.state := by
  have hsound : (extensionMachine site).Sound (Justified site jobs)
      ⟨⟨⟨.empty, .empty⟩, []⟩, fun thread => some ((jobs thread).program site)⟩ := by
    rintro thread program ⟨⟩ later hsteps
    exact program_keeps later (sane_lasting.stable.steps sane_start hsteps)
  exact hreachable.invariant hsound sane_lasting.acts sane_lasting.exits sane_start

end Tasks

section Lifetime

variable {pool next later : Pool extensionCalls ExtensionWorld}

/-- A step after which the instance has a row. -/
def Persists (site : ExtensionSite) (key : Text)
    (pool next : Pool extensionCalls ExtensionWorld) : Prop :=
  (extensionMachine site).Step pool next ∧ (next.state.world.db.instances.find? key).isSome

/-- A step after which the instance is enabled. -/
def PersistsEnabled (site : ExtensionSite) (key : Text)
    (pool next : Pool extensionCalls ExtensionWorld) : Prop :=
  (extensionMachine site).Step pool next ∧
    ∃ row, next.state.world.db.instances.find? key = some row ∧ row.enabled = true

theorem step_evolves (hstep : (extensionMachine site).Step pool next) (key : Text) :
    ∃ installs tests, Evolves installs tests (pool.state.world.db.view key)
      (next.state.world.db.view key) := by
  cases hstep with
  | act _ hacts => exact ⟨_, _, view_evolves hacts key⟩
  | exit _ => exact ⟨True, fun _ => True, .same _⟩

theorem Evolves.revision_le {installs : Prop} {tests : Nat → Prop}
    {before after : Option ExtensionView} {old new : ExtensionView}
    (hevolves : Evolves installs tests before after) (hold : before = some old)
    (hnew : after = some new) : old.1.configurationRev ≤ new.1.configurationRev := by
  cases hevolves with
  | same =>
    cases hold.symm.trans hnew
    exact le_rfl
  | installed => cases hold
  | removed => cases hnew
  | revised _ _ hrevision =>
    cases hold
    cases hnew
    dsimp only
    omega
  | tested | enabled | disabled =>
    cases hold
    cases hnew
    exact le_rfl

/-- What a running instance consists of. -/
def Unchanged (old new : ExtensionView) : Prop :=
  new.1.artifactPin = old.1.artifactPin ∧ new.1.configuration = old.1.configuration ∧
    new.1.metadata = old.1.metadata ∧ new.1.secretSlots = old.1.secretSlots ∧ new.2 = old.2

theorem Evolves.unchanged {installs : Prop} {tests : Nat → Prop}
    {before after : Option ExtensionView} {old new : ExtensionView}
    (hevolves : Evolves installs tests before after) (hold : before = some old)
    (hnew : after = some new) (henabled : old.1.enabled = true) : Unchanged old new := by
  cases hevolves with
  | same =>
    cases hold.symm.trans hnew
    exact ⟨rfl, rfl, rfl, rfl, rfl⟩
  | installed => cases hold
  | removed => cases hnew
  | revised hidle =>
    cases hold
    simp only [Instance.idle, Bool.and_eq_true, Bool.not_eq_true'] at hidle
    cases hidle.1.symm.trans henabled
  | tested | enabled | disabled =>
    cases hold
    cases hnew
    exact ⟨rfl, rfl, rfl, rfl, rfl⟩

theorem revision_le_of_persists {row last : Instance}
    (hsteps : Relation.ReflTransGen (Persists site key) pool later)
    (hrow : pool.state.world.db.instances.find? key = some row)
    (hlast : later.state.world.db.instances.find? key = some last) :
    row.configurationRev ≤ last.configurationRev := by
  induction hsteps generalizing last with
  | refl =>
    cases hrow.symm.trans hlast
    exact le_rfl
  | @tail middle later hsteps hstep ih =>
    have hmiddle : (middle.state.world.db.instances.find? key).isSome := by
      rcases hsteps.cases_tail with rfl | ⟨_, -, hprevious⟩
      · rw [hrow, Option.isSome_some]
      · exact hprevious.2
    obtain ⟨between, hbetween⟩ := Option.isSome_iff_exists.mp hmiddle
    obtain ⟨_, _, hevolves⟩ := step_evolves hstep.1 key
    have hle := hevolves.revision_le (ExtensionDB.view_of_find hbetween)
      (ExtensionDB.view_of_find hlast)
    exact (ih hbetween).trans hle

theorem unchanged_of_persistsEnabled {row last : Instance}
    (hsteps : Relation.ReflTransGen (PersistsEnabled site key) pool later)
    (hrow : pool.state.world.db.instances.find? key = some row) (henabled : row.enabled = true)
    (hlast : later.state.world.db.instances.find? key = some last) :
    Unchanged (row, pool.state.world.db.secretIn key)
      (last, later.state.world.db.secretIn key) := by
  induction hsteps generalizing last with
  | refl =>
    cases hrow.symm.trans hlast
    exact ⟨rfl, rfl, rfl, rfl, rfl⟩
  | @tail middle later hsteps hstep ih =>
    have hmiddle : ∃ between, middle.state.world.db.instances.find? key = some between ∧
        between.enabled = true := by
      rcases hsteps.cases_tail with rfl | ⟨_, -, hprevious⟩
      · exact ⟨row, hrow, henabled⟩
      · exact hprevious.2
    obtain ⟨between, hbetween, hup⟩ := hmiddle
    obtain ⟨_, _, hevolves⟩ := step_evolves hstep.1 key
    obtain ⟨hartifact, hconfiguration, hmetadata, hslots, hsecrets⟩ :=
      hevolves.unchanged (ExtensionDB.view_of_find hbetween) (ExtensionDB.view_of_find hlast) hup
    obtain ⟨hartifact', hconfiguration', hmetadata', hslots', hsecrets'⟩ := ih hbetween
    exact ⟨hartifact.trans hartifact', hconfiguration.trans hconfiguration',
      hmetadata.trans hmetadata', hslots.trans hslots', hsecrets.trans hsecrets'⟩

end Lifetime

/-- The configuration and the secret that a preview and its application name. -/
def webhookInput (letter : UInt8) : ConfigureInput where
  configuration := webhookConfiguration
  secrets := AList.insert runtimeSlot (List.replicate 32 letter) ∅

/-- The approval of the preview that a thread has made. -/
def approvalOf (thread : UInt8) : PreviewApproval where
  actor := webhookOperator
  previewID := ascii "extp_" ++ encodeHex [thread]
  confirmation := ascii "confirm-" ++ encodeHex [thread]

/-- An instance is installed, configured and tested, and meanwhile replaced by another
one under its identifier. -/
def reinstallJobs : Thread → ExtensionJob
  | 0 => .install webhookOperator (webhookRequest 97)
  | 1 => .previewConfigure webhookOperator webhookID (webhookInput 97)
  | 2 => .applyConfigure (approvalOf 1) (webhookInput 97)
  | 3 => .test webhookOperator webhookID
  | 4 => .previewDeleteSecrets webhookOperator webhookID
  | 5 => .applyDeleteSecrets (approvalOf 4)
  | 6 => .previewUninstall webhookOperator webhookID
  | 7 => .applyUninstall (approvalOf 6)
  | 8 => .install webhookOperator (webhookRequest 98)
  | 9 => .previewConfigure webhookOperator webhookID (webhookInput 98)
  | 10 => .applyConfigure (approvalOf 9) (webhookInput 98)
  | 11 => .enable webhookOperator webhookID
  | _ => .crash 0

def reinstalled (schedule : List (Thread × Nat)) :
    (Thread → Program extensionCalls Unit) × ExtensionMoment :=
  follow (fun thread => plainExtensions.note (fun _ => false) [UInt8.ofNat thread] 1 thread)
    schedule (fun thread => (reinstallJobs thread).program plainExtensions) ⟨⟨.empty, .empty⟩, []⟩

theorem reinstalled_reachable (schedule : List (Thread × Nat)) :
    (extensionMachine plainExtensions).Reachable ⟨.empty, .empty⟩
      (fun thread => (reinstallJobs thread).program plainExtensions)
      ⟨(reinstalled schedule).2, fun thread => some ((reinstalled schedule).1 thread)⟩ :=
  steps_of_follow id (fun thread => plainExtensions.note_acts _ _ 1 thread) schedule _ _

theorem reinstalled_shows {schedule : List (Thread × Nat)} {holds : ExtensionMoment → Bool}
    (hholds : holds (reinstalled schedule).2 = true) :
    ∃ pool, (extensionMachine plainExtensions).Reachable ⟨.empty, .empty⟩
      (fun thread => (reinstallJobs thread).program plainExtensions) pool ∧
      holds pool.state = true :=
  ⟨_, reinstalled_reachable schedule, hholds⟩

/-- The test has probed its process and has not recorded it when the instance is
replaced. -/
def replacing : List (Thread × Nat) :=
  [(0, 9), (1, 9), (2, 9), (3, 16), (4, 9), (5, 9), (6, 9), (7, 9), (8, 9), (9, 9),
    (10, 9), (3, 9), (11, 30)]

/-- The instance is enabled, and what the test has probed is another artifact. -/
def mistested (state : ExtensionMoment) : Bool :=
  (state.world.db.instances.find? webhookID).any fun row =>
    row.enabled && row.routed && state.history.all fun event =>
      match event.action with
      | .handshake process _ =>
        event.thread != 3 || process.subject.artifactPin != row.artifactPin
      | _ => true

theorem reinstalled_mistested : mistested (reinstalled replacing).2 = true := by
  decide +kernel

def isInstall (event : Event extensionCalls) : Bool :=
  match event.action with
  | .transact (.install _) => true
  | _ => false

theorem isInstall_of_installsKey {key : Text} {event : Event extensionCalls}
    (hinstalls : InstallsKey key event.action event.answer) : isInstall event = true := by
  obtain ⟨thread, action, answer⟩ := event
  cases action with
  | transact transaction =>
    obtain ⟨-, request, rfl, -⟩ := hinstalls
    rfl
  | _ => cases hinstalls

theorem installedOnce_of_count {history : List (Event extensionCalls)}
    (hcount : history.countP isInstall ≤ 1) : InstalledOnce history := by
  induction history with
  | nil => trivial
  | cons event older ih =>
    rw [List.countP_cons] at hcount
    refine ⟨?_, ih (by omega)⟩
    rintro key hinstalls ⟨other, hmem, hother⟩
    rw [if_pos (isInstall_of_installsKey hinstalls)] at hcount
    have hpositive := List.countP_pos_iff.mpr ⟨other, hmem, isInstall_of_installsKey hother⟩
    omega

/-- The same without the replacement. -/
def undisturbed : List (Thread × Nat) := [(0, 9), (1, 9), (2, 9), (3, 30), (11, 30)]

/-- The instance is enabled, and there was one installation. -/
def enabledOnce (state : ExtensionMoment) : Bool :=
  (state.world.db.instances.find? webhookID).any fun row =>
    row.enabled && decide (state.history.countP isInstall ≤ 1)

theorem installedOnce_of_enabledOnce {state : ExtensionMoment} (honce : enabledOnce state = true) :
    ∃ row, state.world.db.instances.find? webhookID = some row ∧ row.enabled = true ∧
      InstalledOnce state.history := by
  obtain ⟨row, hrow, hrun⟩ := (Option.any_eq_true _ _).mp honce
  rw [Bool.and_eq_true, decide_eq_true_eq] at hrun
  exact ⟨row, hrow, hrun.1, installedOnce_of_count hrun.2⟩

theorem undisturbed_enabledOnce : enabledOnce (reinstalled undisturbed).2 = true ∧
    ((reinstalled undisturbed).2.world.supervisor.processes webhookID).isSome = true := by
  decide +kernel

theorem eq_three_of_test {thread : Thread} {actor : ActorRef} {id : Text}
    (hjob : reinstallJobs thread = .test actor id) : thread = 3 := by
  unfold reinstallJobs at hjob
  split at hjob <;> first | rfl | cases hjob

/-- In every state that the requests reach a routed instance is enabled and an
enabled one has been tested at its revision, with the artifact, the configuration
and the secrets that it has, if no instance has been installed twice; while it has a
row its revision does not decrease, and while it is enabled it stays the same. -/
theorem extension_tested (site : ExtensionSite) (jobs : Thread → ExtensionJob)
    (pool : Pool extensionCalls ExtensionWorld)
    (hreachable : (extensionMachine site).Reachable ⟨.empty, .empty⟩
      (fun thread => (jobs thread).program site) pool)
    (key : Text) (row : Instance) (hrow : pool.state.world.db.instances.find? key = some row) :
    (row.routed = true → row.enabled = true) ∧
    (row.enabled = true → row.testedRevision = some row.configurationRev ∧
      (InstalledOnce pool.state.history → ∃ process, ProbedIn jobs process pool.state.history ∧
          process.subject.instanceID = key ∧
          SameContents site (row, pool.state.world.db.secretIn key) process.subject
            process.secrets)) ∧
    (∀ later last, Relation.ReflTransGen (Persists site key) pool later →
      later.state.world.db.instances.find? key = some last →
      row.configurationRev ≤ last.configurationRev) ∧
    (∀ later last, Relation.ReflTransGen (PersistsEnabled site key) pool later →
      later.state.world.db.instances.find? key = some last → row.enabled = true →
      Unchanged (row, pool.state.world.db.secretIn key)
        (last, later.state.world.db.secretIn key)) := by
  have hview := ExtensionDB.view_of_find hrow
  obtain ⟨hrouted, henabled, htested⟩ := (sane_of_reachable hreachable).vetted key _ hview
  refine ⟨hrouted, fun hup => ⟨henabled hup, fun honce => ?_⟩, ?_, ?_⟩
  · obtain ⟨process, hprobed, hid, hsame⟩ := htested honce (henabled hup)
    exact ⟨process, hprobed, hid.trans (ExtensionDB.view_id hview), hsame⟩
  · exact fun later last hsteps hlast => revision_le_of_persists hsteps hrow hlast
  · exact fun later last hsteps hlast hup => unchanged_of_persistsEnabled hsteps hrow hup hlast

theorem extension_tested_enabled :
    ∃ pool row process, (extensionMachine plainExtensions).Reachable ⟨.empty, .empty⟩
      (fun thread => (reinstallJobs thread).program plainExtensions) pool ∧
      pool.state.world.db.instances.find? webhookID = some row ∧ row.enabled = true ∧
      ProbedIn reinstallJobs process pool.state.history ∧
      SameContents plainExtensions (row, pool.state.world.db.secretIn webhookID)
        process.subject process.secrets := by
  obtain ⟨pool, hreachable, henabledOnce⟩ := reinstalled_shows undisturbed_enabledOnce.1
  obtain ⟨row, hrow, henabled, honce⟩ := installedOnce_of_enabledOnce henabledOnce
  obtain ⟨-, htested, -⟩ := extension_tested _ _ _ hreachable webhookID row hrow
  obtain ⟨process, hprobed, -, hsame⟩ := (htested henabled).2 honce
  exact ⟨pool, row, process, hreachable, hrow, henabled, hprobed, hsame⟩

/-- When an instance is replaced while it is tested, the one that takes its identifier
is enabled and routed without a test of its artifact. -/
theorem extension_untested :
    ∃ pool row, (extensionMachine plainExtensions).Reachable ⟨.empty, .empty⟩
      (fun thread => (reinstallJobs thread).program plainExtensions) pool ∧
      pool.state.world.db.instances.find? webhookID = some row ∧
      row.enabled = true ∧ row.routed = true ∧
      ∀ process, ProbedIn reinstallJobs process pool.state.history →
        process.subject.artifactPin ≠ row.artifactPin := by
  obtain ⟨pool, hreachable, hmistested⟩ := reinstalled_shows reinstalled_mistested
  obtain ⟨row, hrow, hrun⟩ := (Option.any_eq_true _ _).mp hmistested
  simp only [Bool.and_eq_true, List.all_eq_true] at hrun
  obtain ⟨⟨henabled, hrouted⟩, hall⟩ := hrun
  refine ⟨pool, row, hreachable, hrow, henabled, hrouted, ?_⟩
  rintro process ⟨thread, actor, id, subject, hjob, hmem⟩
  have hevent := hall _ hmem
  simpa [eq_three_of_test hjob] using hevent

/-- In every state that the requests reach a supervised process is of an instance that
was installed, and has what its row has unless the row is newer. -/
theorem supervised_current (site : ExtensionSite) (jobs : Thread → ExtensionJob)
    (pool : Pool extensionCalls ExtensionWorld)
    (hreachable : (extensionMachine site).Reachable ⟨.empty, .empty⟩
      (fun thread => (jobs thread).program site) pool) (key : Text) (process : ExtensionProcess)
    (hprocess : pool.state.world.supervisor.processes key = some process) :
    process.subject.instanceID = key ∧ InstalledBefore key pool.state.history ∧
      (InstalledOnce pool.state.history →
        Current site (pool.state.world.db.view key) process.subject process.secrets) := by
  obtain ⟨rfl, hfit⟩ := (sane_of_reachable hreachable).processes key process hprocess
  exact ⟨rfl, hfit.installed, hfit.current⟩

theorem supervised_current_webhook :
    ∃ process, (reinstalled undisturbed).2.world.supervisor.processes webhookID = some process ∧
      Current plainExtensions ((reinstalled undisturbed).2.world.db.view webhookID)
        process.subject process.secrets := by
  have hreachable := reinstalled_reachable undisturbed
  obtain ⟨henabledOnce, hsupervised⟩ := undisturbed_enabledOnce
  generalize reinstalled undisturbed = run at hreachable henabledOnce hsupervised ⊢
  obtain ⟨process, hprocess⟩ := Option.isSome_iff_exists.mp hsupervised
  obtain ⟨-, -, -, honce⟩ := installedOnce_of_enabledOnce henabledOnce
  obtain ⟨-, -, hcurrent⟩ := supervised_current _ _ _ hreachable webhookID process hprocess
  exact ⟨process, hprocess, hcurrent honce⟩

end GotthMail
