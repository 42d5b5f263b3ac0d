/-
The administration of extensions.  A request reads the tables, talks to the
supervisor and commits at most one transaction; when a later step fails, it
takes back what it has done to the supervisor.
-/
import GotthMail.ExtensionRuntime

namespace GotthMail

open Bytes Framing Sha256 Ranges Relational Calls

namespace Extensions

/-- A transaction whose failure ends the request. -/
def transact (transaction : ExtensionTransaction) : ExtensionTask Text := do
  let reply ← Task.observe (askExtensions (.transact transaction))
  Task.of reply.result

/-- The instance and the slots for which it has secrets. -/
def get (id : Text) : ExtensionTask (Instance × List Text) := do
  let found ← Task.attempt (askExtensions (.readInstance id))
  let slots ← Task.attempt (askExtensions (.readSlots found.instanceID))
  return (found, slots)

def readSecrets (found : Instance) : ExtensionTask (List (Text × Text)) :=
  Task.attempt (askExtensions (.readSecrets found.instanceID found.secretSlots))

/-- Take something back when a step fails, and fail with the first reason. -/
def compensated {α β : Type} (body : ExtensionTask α) (undo : ExtensionTask β) :
    ExtensionTask α := do
  match ← Task.observe body.run with
  | .ok value => return value
  | .error reason =>
    let _ ← Task.observe undo.run
    Task.of (.error reason)

section Previews

def createPreview (actor : ActorRef) (found : Instance)
    (operation : PreviewOperation) (payload : PreviewPayload)
    (secrets : Mapping Text Text) : ExtensionTask PreviewRequest := do
  Task.of (demand (actor.type != [] && actor.id != []) .confirmation)
  let (idBytes, confirmationBytes) ← Task.attempt (askExtensions .random)
  let request : PreviewRequest :=
    { id := ascii "extp_" ++ encodeHex idBytes
      instanceID := found.instanceID
      operation := operation
      actor := actor
      baseRevision := found.configurationRev
      payload := payload
      secrets := secrets
      confirmation := ascii "confirm-" ++ encodeHex confirmationBytes }
  let _ ← transact (.createPreview request)
  return request

/-- The instance, when it is neither enabled nor routed. -/
def getIdle (id : Text) : ExtensionTask Instance := do
  let (found, _) ← get id
  Task.of (demand found.idle .conflict)
  return found

variable (site : ExtensionSite) (actor : ActorRef) (id : Text)

def previewConfigure (input : ConfigureInput) : ExtensionTask PreviewRequest := do
  let found ← getIdle id
  let _ ← Task.of (site.validateConfiguration found.metadata input.configuration found.secretSlots)
  Task.of (validateSecrets input.secrets found.secretSlots)
  createPreview actor found .configure (.configuration input.configuration) input.secrets

/-- The update with its tokens in order, when it fits the instance. -/
def validateUpdate (found : Instance) (input : UpdateInput) :
    Except ExtensionError UpdateInput := do
  demand (validArtifact input.artifactPin && validLowerHexDigest input.manifestDigest &&
    validLowerHexDigest input.grantDigest && validLowerHexDigest input.sessionDigest &&
    input.artifactPin != found.artifactPin) .conflict
  let capabilities ← canonicalTokens input.capabilities
  let interfaces ← canonicalTokens input.interfaces
  let secretSlots ← canonicalTokens input.secretSlots
  site.validateMetadata input.metadata
  demand (site.validateConfiguration input.metadata found.configuration secretSlots).toOption.isSome
    (.text "existing configuration is incompatible with extension update")
  return { input with
    capabilities := capabilities
    interfaces := interfaces
    secretSlots := secretSlots }

def previewUpdate (input : UpdateInput) : ExtensionTask PreviewRequest := do
  let found ← getIdle id
  let input ← Task.of (validateUpdate site found input)
  createPreview actor found .update (.update input) ∅

def previewDeleteSecrets : ExtensionTask PreviewRequest := do
  let found ← getIdle id
  createPreview actor found .deleteSecrets .nothing ∅

def previewUninstall : ExtensionTask PreviewRequest := do
  let found ← getIdle id
  createPreview actor found .uninstall .nothing ∅

end Previews

section Lifecycle

variable (site : ExtensionSite) (actor : ActorRef) (id : Text)

/-- Commit, and read the instance that is returned. -/
def transactAndGet (transaction : ExtensionTransaction) : ExtensionTask Instance := do
  let id ← transact transaction
  let (after, _) ← get id
  return after

def install (request : InstallRequest) : ExtensionTask Instance := do
  Task.of (validateActor actor)
  let _ ← Task.of (site.validateInstall request)
  transactAndGet (.install request)

def rollback (confirmation : Text) : ExtensionTask Instance := do
  Task.of (validateActor actor)
  transactAndGet (.rollback id confirmation)

/-- A probe of a process that has just been started. -/
def probeHealthy (found : Instance) : ExtensionTask ExtensionHealth := do
  let health ← Runtime.probe found
  Task.of (demand (health.healthy && validDottedToken health.code) .unhealthy)
  return health

def probeAndStop (found : Instance) : ExtensionTask ExtensionHealth := do
  let probed ← Task.observe (Runtime.probe found).run
  let stopped ← Task.observe (Runtime.stop found).run
  let health ← Task.of probed
  Task.of stopped
  Task.of (demand (health.healthy && validDottedToken health.code) .unhealthy)
  return health

def test : ExtensionTask Instance := do
  Task.of (validateActor actor)
  let (found, slots) ← get id
  Task.of (demand (found.idle && found.requiredSecretsConfigured slots) .conflict)
  let secrets ← readSecrets found
  Runtime.start found secrets
  let health ← probeAndStop found
  transactAndGet (.recordTest id found.configurationRev health.code)

/-- Take the route away and stop the process, whatever comes of it. -/
def withdraw (found : Instance) : ExtensionTask Unit := do
  let _ ← Task.observe (Runtime.revokeRouting found).run
  Runtime.stop found

/-- Route to a process that has answered, and record it. -/
def routeAndRecord (found : Instance) (code : Text) : ExtensionTask Instance := do
  compensated (Runtime.admitRouting found) (Runtime.stop found)
  let _ ← compensated (transact (.recordEnable id found.configurationRev code)) (withdraw found)
  let (after, _) ← get id
  return after

/-- Start an instance that is not running, route to it and record it. -/
def bringUp (found : Instance) (slots : List Text) : ExtensionTask Instance := do
  Task.of (demand (found.idle && decide (found.testedRevision.getD 0 = found.configurationRev) &&
    found.requiredSecretsConfigured slots) .conflict)
  let secrets ← readSecrets found
  Runtime.start found secrets
  let health ← compensated (probeHealthy found) (Runtime.stop found)
  routeAndRecord id found health.code

def enable : ExtensionTask Instance := do
  Task.of (validateActor actor)
  let (found, slots) ← get id
  if found.enabled && found.routed then return found
  else bringUp id found slots

/-- Route to the instance again when it was routed. -/
def reroute (found : Instance) : ExtensionTask Unit :=
  if found.routed then Runtime.admitRouting found else return ()

def unroute (found : Instance) : ExtensionTask Unit :=
  if found.routed then Runtime.revokeRouting found else return ()

/-- Start the process again that has been stopped. -/
def restore (found : Instance) : ExtensionTask Unit := do
  let secrets ← readSecrets found
  Runtime.start found secrets
  reroute found

def takeDown (found : Instance) : ExtensionTask Instance := do
  unroute found
  compensated (Runtime.stop found) (reroute found)
  let _ ← compensated (transact (.recordDisable id found.configurationRev)) (restore found)
  let (after, _) ← get id
  return after

def disable : ExtensionTask Instance := do
  Task.of (validateActor actor)
  let (found, _) ← get id
  if found.idle then return found else takeDown id found

end Lifecycle

end Extensions

/-- The requests of the administration, and the exit of a process. -/
inductive ExtensionJob where
  | install (actor : ActorRef) (request : InstallRequest)
  | previewConfigure (actor : ActorRef) (id : Text) (input : ConfigureInput)
  | previewUpdate (actor : ActorRef) (id : Text) (input : UpdateInput)
  | previewDeleteSecrets (actor : ActorRef) (id : Text)
  | previewUninstall (actor : ActorRef) (id : Text)
  | applyConfigure (approval : PreviewApproval) (input : ConfigureInput)
  | applyUpdate (approval : PreviewApproval)
  | applyDeleteSecrets (approval : PreviewApproval)
  | applyUninstall (approval : PreviewApproval)
  | rollback (actor : ActorRef) (id confirmation : Text)
  | test (actor : ActorRef) (id : Text)
  | enable (actor : ActorRef) (id : Text)
  | disable (actor : ActorRef) (id : Text)
  | crash (handle : Nat)

namespace ExtensionJob

/-- What a request does. -/
def task (site : ExtensionSite) : ExtensionJob → ExtensionTask Unit
  | .install actor request => do let _ ← Extensions.install site actor request
  | .previewConfigure actor id input => do
      let _ ← Extensions.previewConfigure site actor id input
  | .previewUpdate actor id input => do
      let _ ← Extensions.previewUpdate site actor id input
  | .previewDeleteSecrets actor id => do
      let _ ← Extensions.previewDeleteSecrets actor id
  | .previewUninstall actor id => do let _ ← Extensions.previewUninstall actor id
  | .applyConfigure approval input => do
      let _ ← Extensions.transactAndGet (.applyConfigure approval input)
  | .applyUpdate approval => do
      let _ ← Extensions.transactAndGet (.applyUpdate approval)
  | .applyDeleteSecrets approval => do
      let _ ← Extensions.transactAndGet (.applyDeleteSecrets approval)
  | .applyUninstall approval => do
      let _ ← Extensions.transact (.applyUninstall approval)
  | .rollback actor id confirmation => do
      let _ ← Extensions.rollback actor id confirmation
  | .test actor id => do let _ ← Extensions.test actor id
  | .enable actor id => do let _ ← Extensions.enable actor id
  | .disable actor id => do let _ ← Extensions.disable actor id
  | .crash handle => Task.observe (askExtensions (.crash handle))

/-- The request, and what it returns to its caller. -/
def program (site : ExtensionSite) (job : ExtensionJob) :
    Program extensionCalls Unit := do
  let result ← (job.task site).run
  askExtensions (.leave result)

end ExtensionJob

def extensionMachine (site : ExtensionSite) : Machine extensionCalls ExtensionWorld where
  performs _ := site.Performs
  exits _ world := world

section Environment

/-- Fail when the environment does. -/
def orFault {α : Type} (fault : Bool) (answer : Except ExtensionError α) :
    Except ExtensionError α :=
  if fault then .error .runtime else answer

theorem orFault_answers {α : Type} (fault : Bool) (answer : Except ExtensionError α) :
    Answers answer (orFault fault answer) := by
  cases fault with
  | false => exact .inl rfl
  | true => exact .inr ⟨_, rfl⟩

/-- An operation of the supervisor on a world. -/
def ExtensionWorld.decide (world : ExtensionWorld) (outcome : Except ExtensionError Supervisor) :
    Except ExtensionError Unit × ExtensionWorld :=
  match outcome with
  | .ok supervisor => (.ok (), { world with supervisor := supervisor })
  | .error reason => (.error reason, world)

theorem ExtensionWorld.decide_decides (world : ExtensionWorld)
    (outcome : Except ExtensionError Supervisor) :
    Decides world (world.decide outcome).2 outcome (world.decide outcome).1 := by
  cases outcome <;> exact ⟨rfl, rfl⟩

/-- A transaction at a time, which the environment may fail. -/
def ExtensionSite.commit (site : ExtensionSite) (fault : Bool) (now : Time)
    (world : ExtensionWorld) (transaction : ExtensionTransaction) :
    TransactionReply × ExtensionWorld :=
  match orFault fault (site.execute now world.db transaction) with
  | .ok next =>
    (⟨.ok (transaction.subject world.db), now, true⟩, { world with db := next })
  | .error reason => (⟨.error reason, now, false⟩, world)

theorem ExtensionSite.commit_performs (site : ExtensionSite) (fault : Bool) (now : Time)
    (world : ExtensionWorld) (transaction : ExtensionTransaction) :
    site.Performs world (.transact transaction) (site.commit fault now world transaction).1
      (site.commit fault now world transaction).2 := by
  unfold ExtensionSite.commit
  split
  · next next hexecute =>
      refine .inl ⟨rfl, .inl rfl, next, ?_, rfl⟩
      cases fault with
      | false => exact hexecute
      | true => cases hexecute
  · exact .inr ⟨rfl, ⟨_, rfl⟩, rfl⟩

def ExtensionWorld.enlist (world : ExtensionWorld) (process : ExtensionProcess) :
    Bool × ExtensionWorld :=
  match world.supervisor.processes process.subject.instanceID with
  | none => (true, { world with supervisor := world.supervisor.register process })
  | some _ => (false, world)

theorem ExtensionWorld.enlist_performs (site : ExtensionSite) (world : ExtensionWorld)
    (process : ExtensionProcess) :
    site.Performs world (.register process) (world.enlist process).1 (world.enlist process).2 := by
  unfold ExtensionWorld.enlist
  split
  · next hfree => exact ⟨hfree, rfl⟩
  · next htaken => exact ⟨by rw [htaken]; exact nofun, rfl⟩

/-- A process answers while it lives and is connected. -/
def Supervisor.greet (supervisor : Supervisor) (process : ExtensionProcess) :
    Except ExtensionError Unit :=
  demand (!supervisor.exited process.handle && !supervisor.closed process.handle) .unauthenticated

/-- An environment that fails the given calls and answers the others as well as it
can; what it calls random and the time are fixed. -/
def ExtensionSite.respond (site : ExtensionSite) (faults : ExtensionAction → Bool)
    (seed : Text) (now : Time) (world : ExtensionWorld) :
    (action : ExtensionAction) → action.Answer × ExtensionWorld
  | .readInstance id =>
    (orFault (faults (.readInstance id)) (site.findInstance world.db id), world)
  | .readSlots id =>
    (orFault (faults (.readSlots id)) (.ok (world.db.configuredSlots id)), world)
  | .readSecrets id slots =>
    (orFault (faults (.readSecrets id slots)) (.ok (world.db.readSecrets id slots)), world)
  | .random => (.ok (seed, seed), world)
  | .transact transaction =>
    site.commit (faults (.transact transaction)) now world transaction
  | .checkContext => (.ok (), world)
  | .lookup id => (world.supervisor.processes id, world)
  | .processExited process => (world.supervisor.exited process.handle, world)
  | .prepare _ => (.ok (), world)
  | .launch subject secrets =>
    (.ok ⟨world.supervisor.launched, subject, secrets⟩,
      { world with supervisor := world.supervisor.launch })
  | .connect _ => (.ok (), world)
  | .register process => world.enlist process
  | .handshake process _ => (world.supervisor.greet process, world)
  | .admitRouting id => world.decide (world.supervisor.admitRouting id)
  | .revokeRouting id => world.decide (world.supervisor.revokeRouting id)
  | .beginStop id => (world.supervisor.beginStop id, world)
  | .terminate process =>
    (.ok (), { world with
      supervisor := (world.supervisor.close process.handle).exit process.handle })
  | .remove process =>
    ((), { world with supervisor := world.supervisor.remove process })
  | .removeFiles _ => (.ok (), world)
  | .crash handle => ((), { world with supervisor := world.supervisor.exit handle })
  | .leave _ => ((), world)

theorem ExtensionSite.respond_performs (site : ExtensionSite)
    (faults : ExtensionAction → Bool) (seed : Text) (now : Time)
    (world : ExtensionWorld) (action : ExtensionAction) :
    site.Performs world action (site.respond faults seed now world action).1
      (site.respond faults seed now world action).2 := by
  cases action with
  | readInstance | readSlots | readSecrets => exact ⟨orFault_answers _ _, rfl⟩
  | transact transaction => exact site.commit_performs _ now world transaction
  | lookup | processExited | launch | beginStop => exact ⟨rfl, rfl⟩
  | register process => exact world.enlist_performs site process
  | handshake process subject =>
    refine ⟨fun hok => ?_, rfl⟩
    have hopen := demand_ok_iff.mp hok
    simpa using hopen
  | admitRouting | revokeRouting => exact world.decide_decides _
  | random | checkContext | prepare | connect | terminate | remove | removeFiles
  | crash | leave => rfl

/-- Answer a call of a thread and note the event. -/
def ExtensionSite.note (site : ExtensionSite) (faults : ExtensionAction → Bool)
    (seed : Text) (now : Time) (thread : Thread)
    (moment : Moment extensionCalls ExtensionWorld) (action : ExtensionAction) :
    action.Answer × Moment extensionCalls ExtensionWorld :=
  let reply := site.respond faults seed now moment.world action
  (reply.1, ⟨reply.2, ⟨thread, action, reply.1⟩ :: moment.history⟩)

theorem ExtensionSite.note_acts (site : ExtensionSite) (faults : ExtensionAction → Bool)
    (seed : Text) (now : Time) (thread : Thread)
    (moment : Moment extensionCalls ExtensionWorld) (action : ExtensionAction) :
    (extensionMachine site).Acts thread moment action
      (site.note faults seed now thread moment action).1
      (site.note faults seed now thread moment action).2 :=
  ⟨site.respond_performs faults seed now moment.world action, rfl⟩

end Environment

end GotthMail
