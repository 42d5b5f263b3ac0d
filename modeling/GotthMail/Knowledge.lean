/-
What a thread can know about a queue file.  A thread that owns its lock is the
only one to inspect it and to move it, except that policy may require a hold at
any time; a thread that shares the policy tables sees one policy.
-/
import GotthMail.Interference

namespace GotthMail

open Bytes Relational Calls

/-- The requests of the parties around a queue file. -/
inductive Job where
  | release (operator : Operator) (queueID confirmed : Text)
  | reconcile (operator : Operator) (queueID : Text)
  | requireHold (operator : Operator) (queueID : Text) (decision : Decision)
  | decide (actor : ActorRef) (correlationID : Text) (request : EnforcementRequest)
  | register (input : QueueRegistration)
  | apply (request : ChangeRequest)
  | mutate (mutation : PolicyMutation)

/-- What a request runs; its answer goes to the caller. -/
def Job.program (p : Platform) : Job → Program interface Unit
  | .release operator queueID confirmed =>
    (p.release operator queueID confirmed).run >>= fun _ => .done ()
  | .reconcile operator queueID =>
    (p.reconcile operator queueID).run >>= fun _ => .done ()
  | .requireHold operator queueID decision =>
    (operator.requireHold queueID decision).run >>= fun _ => .done ()
  | .decide actor correlationID request =>
    p.decideRequest actor correlationID request >>= fun _ => .done ()
  | .register input => do
      let now ← ask .clock
      let _ ← ask (.register now input)
      return ()
  | .apply request => do
      let now ← ask .clock
      let _ ← ask (.applyChange now request)
      return ()
  | .mutate mutation => ask (.mutate mutation) >>= fun _ => .done ()

abbrev Instant := Moment interface World

/-- The thread has the lock of the queue file. -/
def Owns (thread : Thread) (queueID : Text) (state : Instant) : Prop :=
  state.world.queueLocks (queueAdvisoryLockKey queueID) = some thread

def Shares (thread : Thread) (state : Instant) : Prop := state.world.policyLocks thread = true

/-- Two records of one queue file: they differ in the state of the hold only. -/
structure QueueRecord.SameFile (record current : QueueRecord) : Prop where
  queueID : current.queueID = record.queueID
  fingerprint : current.arrivalFingerprint = record.arrivalFingerprint
  sender : current.envelopeSender = record.envelopeSender
  recipientDigest : current.recipientSetDigest = record.recipientSetDigest
  sourceDigest : current.sourceSetDigest = record.sourceSetDigest
  firstSeen : current.firstSeenAt = record.firstSeenAt
  recipients : current.recipients = record.recipients
  sources : current.sources = record.sources

def isInspection (queueID : Text) (event : Event interface) : Bool :=
  match event.action with
  | .inspect inspected => decide (inspected = queueID)
  | _ => false

/-- The last observation of the queue file is the thread's own. -/
def LastSeen (thread : Thread) (queueID : Text) (metadata : QueueMetadata)
    (state : Instant) : Prop :=
  state.history.find? (isInspection queueID) = some ⟨thread, .inspect queueID, .ok metadata⟩

/-- Policy has required a hold after the thread started its release. -/
def RequiredSince (thread : Thread) (queueID : Text) (state : Instant) : Prop :=
  ∃ other mover decision answer start, mover.queueID = queueID ∧ start.queueID = queueID ∧
      List.Sublist [⟨other, .requireHold mover decision, answer⟩,
        ⟨thread, .startRelease start, .ok ()⟩] state.history

section Conditions

variable (locale : Locale) (p : Platform)

/-- The queue file is stored, in whatever state its hold is. -/
def Stored (queueID : Text) (record : QueueRecord) (state : Instant) : Prop :=
  ∃ current, state.world.db.loadQueueRecord locale p queueID = .ok current ∧ record.SameFile current

/-- After its own start the thread has seen the message held, or not held,
with the metadata of the stored record. -/
def Saw (started : Mover → Event interface) (held : Bool) (thread : Thread)
    (queueID : Text) (state : Instant) : Prop :=
  ∃ start metadata record, start.queueID = queueID ∧
    List.Sublist [⟨thread, .inspect queueID, .ok metadata⟩, started start] state.history ∧
    metadata.held = held ∧ state.world.db.loadQueueRecord locale p queueID = .ok record ∧
    p.matchesQueueMetadata record metadata = true

/-- What has to hold when Postfix is told to release a message. -/
structure ReleaseCleared (thread : Thread) (queueID confirmed : Text)
    (state : Instant) (record : QueueRecord) (governing : List GoverningDomain)
    (metadata : QueueMetadata) : Prop where
  stored : state.world.db.loadQueueRecord locale p queueID = .ok record
  policy : p.resolvePolicySources state.world.db record.sources = .ok governing
  permitted : ∀ recipient ∈ record.recipients,
    (p.evaluate ⟨.transport, record.queueID, recipient, governing⟩).action = .ok
  confirmed : ∃ revisions snapshot, p.releasePolicySnapshot governing = .ok (revisions, snapshot) ∧
      confirmed = Platform.confirmation record snapshot
  holdState : record.holdState = .releaseReconciling ∨
    record.holdState = .required ∧ RequiredSince thread queueID state
  seen : LastSeen thread queueID metadata state
  held : metadata.held = true
  same : p.matchesQueueMetadata record metadata = true

def reconciliationStarted (thread : Thread) (start : Mover) : Event interface :=
  ⟨thread, .startReconciliation start, .ok ()⟩

def releaseStarted (thread : Thread) (start : Mover) : Event interface :=
  ⟨thread, .startRelease start, .ok ()⟩

variable (jobs : Thread → Job)

/-- When a thread may make a call. -/
def allowed (thread : Thread) (state : Instant) : Call → Prop
  | .inspect queueID => Owns thread queueID state
  | .hold queueID => Owns thread queueID state
  | .startReconciliation mover => Owns thread mover.queueID state
  | .startRelease mover => Owns thread mover.queueID state
  | .finishReconciliation mover written _ =>
    Owns thread mover.queueID state ∧ (written = .applied →
      (∃ operator, jobs thread = .reconcile operator mover.queueID) ∧
        Saw locale p (reconciliationStarted thread) true thread mover.queueID state)
  | .finishRelease mover written _ =>
    Owns thread mover.queueID state ∧ (written = .released → (∃ operator confirmed,
          jobs thread = .release operator mover.queueID confirmed) ∧
        Saw locale p (releaseStarted thread) false thread mover.queueID state)
  | .release queueID => ∃ operator confirmed record governing metadata,
      jobs thread = .release operator queueID confirmed ∧
        ReleaseCleared locale p thread queueID confirmed state record governing metadata
  | _ => True

/-- What one thread may rely on. -/
@[reducible] def among (thread : Thread) : Setting interface Instant :=
  (machine locale p).setting (allowed locale p jobs) thread

end Conditions

theorem QueueRecord.SameFile.refl (record : QueueRecord) :
    record.SameFile record :=
  ⟨rfl, rfl, rfl, rfl, rfl, rfl, rfl, rfl⟩

theorem QueueRecord.SameFile.trans {first second third : QueueRecord}
    (hfirst : first.SameFile second) (hsecond : second.SameFile third) :
    first.SameFile third :=
  ⟨hsecond.queueID.trans hfirst.queueID, hsecond.fingerprint.trans hfirst.fingerprint,
    hsecond.sender.trans hfirst.sender, hsecond.recipientDigest.trans hfirst.recipientDigest,
    hsecond.sourceDigest.trans hfirst.sourceDigest, hsecond.firstSeen.trans hfirst.firstSeen,
    hsecond.recipients.trans hfirst.recipients, hsecond.sources.trans hfirst.sources⟩

theorem MessageRow.SameIdentity.sameFile {row after : MessageRow}
    (hsame : row.SameIdentity after) (recipients : List Text) (sources : List QueueSource) :
    (row.toRecord recipients sources).SameFile (after.toRecord recipients sources) :=
  ⟨hsame.queueID, hsame.fingerprint, hsame.sender, hsame.recipientDigest,
    hsame.sourceDigest, hsame.firstSeen, rfl, rfl⟩

variable {locale : Locale} {p : Platform} {jobs : Thread → Job}
  {thread other : Thread} {queueID : Text} {record current : QueueRecord}
  {state after : Instant} {call : Call} {answer : call.Answer}

theorem QueueRecord.SameFile.matchesQueueMetadata
    (hsame : record.SameFile current) (metadata : QueueMetadata) :
    p.matchesQueueMetadata current metadata =
      p.matchesQueueMetadata record metadata := by
  simp only [Platform.matchesQueueMetadata, hsame.sources, sameQueueIdentity,
    hsame.queueID, hsame.fingerprint, hsame.sender, hsame.recipientDigest, hsame.sourceDigest]

theorem QueueRecord.SameFile.confirmation (hsame : record.SameFile current) (snapshot : List Text) :
    Platform.confirmation current snapshot =
      Platform.confirmation record snapshot := by
  simp only [Platform.confirmation, hsame.queueID, hsame.fingerprint,
    hsame.recipientDigest, hsame.sourceDigest]

section Keeping

variable (hp : p.Lookup) {row : MessageRow} {db next : Database}
include hp

/-- The row that a call leaves is again one that the load accepts. -/
theorem Call.Keeps.validMessage (hkeeps : call.Keeps locale p queueID row db next)
    (hrow : p.ValidMessage queueID row) :
    ∃ after, next.messages.find? queueID = some after ∧
      row.SameIdentity after ∧ p.ValidMessage queueID after := by
  rcases hkeeps.message with ⟨after, hafter, rfl | ⟨hwrites, hchecks⟩⟩
  · exact ⟨after, hafter, .refl after, hrow⟩
  · have hstep := hwrites.holdStep
    exact ⟨after, hafter, hstep.sameIdentity, hstep.validMessage hp hchecks hrow⟩

/-- No call makes a stored queue file unreadable. -/
theorem Call.Keeps.loads (hkeeps : call.Keeps locale p queueID row db next)
    (hrow : db.messages.find? queueID = some row)
    (hload : db.loadQueueRecord locale p queueID = .ok current) :
    ∃ again, next.loadQueueRecord locale p queueID = .ok again ∧
      current.SameFile again := by
  obtain ⟨found, hfound, hvalid, hchildren, hrecipients, hsources, rfl⟩ :=
    loadQueueRecord_ok_iff.mp hload
  cases hrow.symm.trans hfound
  obtain ⟨after, hafter, hsame, hagain⟩ := hkeeps.validMessage hp hvalid
  refine ⟨_, loadQueueRecord_ok_iff.mpr ⟨after, hafter, hagain, ?_, ?_, ?_, rfl⟩, ?_⟩
  · rw [hkeeps.children.recipients, hkeeps.children.sources]
    exact hchildren
  · rw [hkeeps.children.recipients, hsame.recipientDigest]
    exact hrecipients
  · rw [hkeeps.children.sources, hsame.sourceDigest]
    exact hsources
  · rw [hkeeps.children.recipients, hkeeps.children.sources]
    exact hsame.sameFile _ _

theorem Stored.acts (hstored : Stored locale p queueID record state)
    (hacts : (machine locale p).Acts thread state call answer after) :
    Stored locale p queueID record after := by
  obtain ⟨current, hload, hsame⟩ := hstored
  obtain ⟨row, hrow, _⟩ := find?_of_loadQueueRecord hload
  obtain ⟨again, hagain, hfile⟩ := (performs_keeps hacts.1 hrow).loads hp hrow hload
  exact ⟨again, hagain, hsame.trans hfile⟩

end Keeping

/-- The queue file whose lock a call needs. -/
def Call.guarded : Call → Option Text
  | .inspect queueID => some queueID
  | .hold queueID => some queueID
  | .startReconciliation mover => some mover.queueID
  | .startRelease mover => some mover.queueID
  | .finishReconciliation mover _ _ => some mover.queueID
  | .finishRelease mover _ _ => some mover.queueID
  | _ => none

def Call.givesUp : Call → Bool
  | .unlockQueue _ => true
  | .endPolicy => true
  | _ => false

theorem owns_of_allowed (hallowed : allowed locale p jobs thread state call)
    (hguarded : call.guarded = some queueID) : Owns thread queueID state := by
  cases call with
  | inspect | hold | startReconciliation | startRelease =>
    cases hguarded
    exact hallowed
  | finishReconciliation | finishRelease =>
    cases hguarded
    exact hallowed.1
  | _ => cases hguarded

/-- The calls that need the lock of a queue file. -/
def guardedCalls (queueID : Text) : Set Call := {call | call.guarded = some queueID}

theorem inspect_subset : {.inspect queueID} ⊆ guardedCalls queueID := by
  rintro _ rfl
  rfl

/-- A fact that survives all calls but the excepted ones, and those of its own
thread as long as that keeps its locks. -/
structure Endures (locale : Locale) (p : Platform) (thread : Thread)
    (except : Set Call) (fact : Instant → Prop) : Prop where
  acts : ∀ {actor state after call} {answer : Call.Answer call}, call ∉ except →
    actor ≠ thread ∨ call.givesUp = false →
    (machine locale p).Acts actor state call answer after → fact state → fact after
  left : ∀ {actor state}, actor ≠ thread → fact state → fact ((machine locale p).left actor state)

namespace Endures

variable {except : Set Call} {fact second : Instant → Prop}

theorem and (hfact : Endures locale p thread except fact)
    (hsecond : Endures locale p thread except second) :
    Endures locale p thread except fun state => fact state ∧ second state where
  acts hguard hkept hacts hboth :=
    ⟨hfact.acts hguard hkept hacts hboth.1, hsecond.acts hguard hkept hacts hboth.2⟩
  left hother hboth := ⟨hfact.left hother hboth.1, hsecond.left hother hboth.2⟩

theorem any {ι : Sort*} {facts : ι → Instant → Prop}
    (hfacts : ∀ index, Endures locale p thread except (facts index)) :
    Endures locale p thread except fun state => ∃ index, facts index state where
  acts hguard hkept hacts := fun ⟨index, hfact⟩ =>
    ⟨index, (hfacts index).acts hguard hkept hacts hfact⟩
  left hother := fun ⟨index, hfact⟩ => ⟨index, (hfacts index).left hother hfact⟩

theorem all {ι : Sort*} {facts : ι → Instant → Prop}
    (hfacts : ∀ index, Endures locale p thread except (facts index)) :
    Endures locale p thread except fun state => ∀ index, facts index state where
  acts hguard hkept hacts hall index := (hfacts index).acts hguard hkept hacts (hall index)
  left hother hall index := (hfacts index).left hother (hall index)

theorem const (fact : Prop) : Endures locale p thread except fun _ => fact where
  acts _ _ _ hfact := hfact
  left _ hfact := hfact

theorem mono {wider : Set Call} (hfact : Endures locale p thread except fact)
    (hwider : except ⊆ wider) : Endures locale p thread wider fact where
  acts hcall := hfact.acts fun hexcept => hcall (hwider hexcept)
  left := hfact.left

theorem owns : Endures locale p thread except (Owns thread queueID) where
  acts _ hkept hacts howns := by
    refine performs_queueLocks hacts.1 howns (hkept.imp id fun hgives => ?_)
    rintro rfl
    cases hgives
  left hother howns := by
    simp only [Owns, Machine.left, exits] at howns ⊢
    rw [howns, if_neg (by simpa using Ne.symm hother)]

theorem shares : Endures locale p thread except (Shares thread) where
  acts _ hkept hacts hshares := by
    refine performs_policyLocks hacts.1 hshares (hkept.imp id fun hgives => ?_)
    rintro rfl
    cases hgives
  left hother hshares := by
    simp only [Shares, Machine.left, exits] at hshares ⊢
    rw [Function.update_of_ne (Ne.symm hother)]
    exact hshares

theorem stored (hp : p.Lookup) :
    Endures locale p thread except (Stored locale p queueID record) where
  acts _ _ hacts hstored := hstored.acts hp hacts
  left _ hstored := hstored

theorem happened (events : List (Event interface)) :
    Endures locale p thread except fun state => events.Sublist state.history where
  acts _ _ hacts hevents := by
    rw [hacts.2]
    exact hevents.cons _
  left _ hevents := hevents

/-- While its tables are shared, policy resolves as it did. -/
theorem resolved (sources : List QueueSource) (governing : List GoverningDomain) :
    Endures locale p thread except fun state => Shares thread state ∧
      p.resolvePolicySources state.world.db sources = .ok governing where
  acts hguard hkept hacts hboth := by
    refine ⟨shares.acts hguard hkept hacts hboth.1, ?_⟩
    rw [(performs_samePolicy hacts.1 hboth.1).resolvePolicySources]
    exact hboth.2
  left hother hboth := ⟨(shares : Endures locale p thread except _).left hother hboth.1, hboth.2⟩

end Endures

/-- The rows that a load goes through, read or not yet. -/
structure Present (locale : Locale) (p : Platform) (queueID : Text)
    (row : MessageRow) (recipientRows : List RecipientRow)
    (sourceRows : List SourceRow) (state : Instant) : Prop where
  message : ∃ found, state.world.db.messages.find? queueID = some found ∧
    row.SameIdentity found ∧ p.ValidMessage queueID found
  recipients : state.world.db.queueRecipients locale queueID = recipientRows
  sources : state.world.db.queueSources locale queueID = sourceRows

theorem Endures.present (hp : p.Lookup) {except : Set Call} {row : MessageRow}
    {recipientRows : List RecipientRow} {sourceRows : List SourceRow} :
    Endures locale p thread except (Present locale p queueID row recipientRows sourceRows) where
  acts _ _ hacts hpresent := by
    obtain ⟨found, hfound, hsame, hvalid⟩ := hpresent.message
    have hkeeps := performs_keeps hacts.1 hfound
    obtain ⟨again, hagain, hidentity, hvalid'⟩ := hkeeps.validMessage hp hvalid
    exact
      { message := ⟨again, hagain, hsame.trans hidentity, hvalid'⟩
        recipients := hkeeps.children.recipients.trans hpresent.recipients
        sources := hkeeps.children.sources.trans hpresent.sources }
  left _ hpresent := ⟨hpresent.message, hpresent.recipients, hpresent.sources⟩

/-- Rows that load stay rows that load. -/
theorem Present.stored {row : MessageRow} {recipientRows : List RecipientRow}
    {sourceRows : List SourceRow}
    (hpresent : Present locale p queueID row recipientRows sourceRows state)
    (hload : p.loadQueueRecord queueID (some row) recipientRows sourceRows =
      .ok record) : Stored locale p queueID record state := by
  obtain ⟨_, hrow, _, hchildren, hrecipients, hsources, rfl⟩ := loadQueueRecord_ok_iff.mp hload
  cases hrow
  obtain ⟨found, hfound, hsame, hvalid⟩ := hpresent.message
  refine ⟨_, loadQueueRecord_ok_iff.mpr ⟨found, hfound, hvalid, ?_, ?_, ?_, rfl⟩, ?_⟩
  · rw [hpresent.recipients, hpresent.sources]
    exact hchildren
  · rw [hpresent.recipients, hsame.recipientDigest]
    exact hrecipients
  · rw [hpresent.sources, hsame.sourceDigest]
    exact hsources
  · rw [hpresent.recipients, hpresent.sources]
    exact hsame.sameFile _ _

/-- The thread's release has started, and nothing but a required hold has
touched the row since. -/
def Releasing (thread : Thread) (queueID : Text) (state : Instant) : Prop :=
  ∃ start row, start.queueID = queueID ∧ releaseStarted thread start ∈ state.history ∧
    state.world.db.messages.find? queueID = some row ∧ (row.holdState = .releaseReconciling ∨
      row.holdState = .required ∧ RequiredSince thread queueID state)

theorem RequiredSince.acts (hsince : RequiredSince thread queueID state)
    (hacts : (machine locale p).Acts other state call answer after) :
    RequiredSince thread queueID after := by
  obtain ⟨actor, mover, decision, given, start, hmover, hstart, hevents⟩ := hsince
  refine ⟨actor, mover, decision, given, start, hmover, hstart, ?_⟩
  rw [hacts.2]
  exact hevents.cons _

/-- Without the lock the only write to a row is a required hold. -/
theorem Call.Writes.of_not_guarded {row written : MessageRow}
    (hwrites : call.Writes p queueID row written) (hguard : call.guarded ≠ some queueID) :
    ∃ mover decision, call = .requireHold mover decision ∧
      mover.queueID = queueID ∧ written.holdState = .required := by
  cases call with
  | requireHold mover decision =>
    obtain ⟨hmover, revisions, _, rfl⟩ := hwrites
    exact ⟨mover, decision, rfl, hmover, rfl⟩
  | startReconciliation | startRelease | finishReconciliation | finishRelease =>
    exact absurd (congrArg some hwrites.1) hguard
  | _ => exact hwrites.elim

theorem Endures.releasing :
    Endures locale p thread (guardedCalls queueID) (Releasing thread queueID) where
  acts {actor state after call answer} hguard _ hacts hreleasing := by
    obtain ⟨start, row, hstart, hstarted, hrow, hstate⟩ := hreleasing
    obtain ⟨written, hwritten, rfl | ⟨hwrites, _⟩⟩ := (performs_keeps hacts.1 hrow).message
    · refine ⟨start, written, hstart, ?_, hwritten,
        hstate.imp id fun hrequired => ⟨hrequired.1, hrequired.2.acts hacts⟩⟩
      rw [hacts.2]
      exact List.mem_cons_of_mem _ hstarted
    · obtain ⟨mover, decision, rfl, hmover, hrequired⟩ := hwrites.of_not_guarded hguard
      refine ⟨start, written, hstart, ?_, hwritten, .inr ⟨hrequired, ?_⟩⟩
      · rw [hacts.2]
        exact List.mem_cons_of_mem _ hstarted
      · refine ⟨actor, mover, decision, answer, start, hmover, hstart, ?_⟩
        rw [hacts.2]
        exact (List.singleton_sublist.mpr hstarted).cons_cons _
  left _ hreleasing := hreleasing

theorem Endures.lastSeen {metadata : QueueMetadata} :
    Endures locale p thread {.inspect queueID} (LastSeen thread queueID metadata) where
  acts {actor state after call answer} hcall _ hacts hseen := by
    rw [LastSeen, hacts.2, List.find?_cons_of_neg]
    · exact hseen
    · cases call with
      | inspect inspected =>
        intro hsame
        exact hcall (congrArg Call.inspect (of_decide_eq_true hsame))
      | _ => simp [isInspection]
  left _ hseen := hseen

section Rules

variable {fact : Instant → Prop} {gain : call.Answer → Instant → Prop}

theorem Endures.stable (hfact : Endures locale p thread ∅ fact) :
    (among locale p jobs thread).Stable fact := by
  rintro state after hstate ⟨other, hother, ⟨call, answer, _, hacts⟩ | rfl⟩
  · exact hfact.acts (Set.notMem_empty call) (.inl hother) hacts hstate
  · exact hfact.left hother hstate

/-- The others cannot make a call that needs a lock which is taken. -/
theorem Endures.stable_owned (hfact : Endures locale p thread (guardedCalls queueID) fact) :
    (among locale p jobs thread).Stable fun state => Owns thread queueID state ∧ fact state := by
  rintro state after ⟨howns, hstate⟩ hrely
  refine ⟨Endures.owns.stable state after howns hrely, ?_⟩
  obtain ⟨other, hother, ⟨call, answer, hallowed, hacts⟩ | rfl⟩ := hrely
  · refine hfact.acts (fun hguarded => ?_) (.inl hother) hacts hstate
    have htaken := owns_of_allowed hallowed hguarded
    exact hother (Option.some.inj (htaken.symm.trans howns))
  · exact hfact.left hother hstate

/-- A call of a thread, whoever has the locks. -/
theorem ask_keeps (hfact : Endures locale p thread ∅ fact)
    (hgain : ∀ answer, Endures locale p thread ∅ (gain answer)) (hgives : call.givesUp = false)
    (hallowed : ∀ state, fact state → allowed locale p jobs thread state call)
    (hresult : ∀ {state answer after}, fact state →
      (machine locale p).Acts thread state call answer after → gain answer after) :
    (among locale p jobs thread).Triple fact (ask call) fun answer state =>
      fact state ∧ gain answer state := by
  refine Setting.Triple.perform hallowed ?_ fun answer => (hfact.and (hgain answer)).stable
  intro state answer after hstate hacts
  exact ⟨hfact.acts (Set.notMem_empty call) (.inr hgives) hacts hstate, hresult hstate hacts⟩

variable (queueID) in
/-- A call of the thread that has the lock. -/
theorem ask_owned {except : Set Call} (hfact : Endures locale p thread except fact)
    (hexcept : except ⊆ guardedCalls queueID) (hcall : call ∉ except)
    (hgain : ∀ answer, Endures locale p thread (guardedCalls queueID) (gain answer))
    (hgives : call.givesUp = false) (hallowed : ∀ state, Owns thread queueID state → fact state →
      allowed locale p jobs thread state call)
    (hresult : ∀ {state answer after}, Owns thread queueID state → fact state →
      (machine locale p).Acts thread state call answer after → gain answer after) :
    (among locale p jobs thread).Triple
      (fun state => Owns thread queueID state ∧ fact state) (ask call)
      fun answer state => Owns thread queueID state ∧ fact state ∧
        gain answer state := by
  refine Setting.Triple.perform (fun state hstate => hallowed state hstate.1 hstate.2)
    ?_ fun answer => ((hfact.mono hexcept).and (hgain answer)).stable_owned
  intro state answer after ⟨howns, hstate⟩ hacts
  have hkept : Owns thread queueID after :=
    Endures.owns.acts (Set.notMem_empty call) (.inr hgives) hacts howns
  exact ⟨hkept, hfact.acts hcall (.inr hgives) hacts hstate, hresult howns hstate hacts⟩

end Rules

section Load

variable (hp : p.Lookup) {fact : Instant → Prop} (hfact : Endures locale p thread ∅ fact)
include hp hfact

theorem readMessage_present (queueID : Text) :
    (among locale p jobs thread).Triple fact (ask (.readMessage queueID))
      fun answer state => fact state ∧ ∀ row, answer = .ok (some row) →
        p.ValidMessage queueID row → ∃ recipientRows sourceRows,
          Present locale p queueID row recipientRows sourceRows state := by
  refine ask_keeps hfact (fun _ => .all fun _ => .all fun _ => .all fun _ =>
    .any fun _ => .any fun _ => .present hp) rfl (fun _ _ => trivial) ?_
  rintro state answer ⟨_, _⟩ _ ⟨hreads, _⟩ row rfl hvalid
  simp only [performs] at hreads
  cases hreads.1
  refine ⟨_, _, ⟨row, ?_, .refl row, hvalid⟩, rfl, rfl⟩
  exact Except.ok.inj hreads.ok

theorem readRecipients_present (row : MessageRow) (queueID : Text) :
    (among locale p jobs thread).Triple (fun state => fact state ∧ ∃ recipientRows sourceRows,
        Present locale p queueID row recipientRows sourceRows state)
      (ask (.readRecipients queueID)) fun answer state => fact state ∧ ∀ recipientRows,
        answer = .ok recipientRows → ∃ sourceRows,
          Present locale p queueID row recipientRows sourceRows state := by
  refine .consequence (fun _ hstate => hstate) (ask_keeps
    (hfact.and (.any fun _ => .any fun _ => .present hp))
    (fun answer => .all fun recipientRows => .all fun _ : answer =
      .ok recipientRows => .any fun _ => .present hp) rfl (fun _ _ => trivial) ?_)
    fun _ _ hstate => ⟨hstate.1.1, hstate.2⟩
  rintro state answer ⟨_, _⟩ ⟨_, _, _, hpresent⟩ ⟨hreads, _⟩ recipientRows rfl
  simp only [performs] at hreads
  cases hreads.1
  exact ⟨_, hpresent.message, Except.ok.inj hreads.ok, hpresent.sources⟩

theorem readSources_present (row : MessageRow)
    (recipientRows : List RecipientRow) (queueID : Text) :
    (among locale p jobs thread).Triple (fun state => fact state ∧ ∃ sourceRows,
        Present locale p queueID row recipientRows sourceRows state)
      (ask (.readSources queueID))
      fun answer state => fact state ∧ ∀ sourceRows, answer = .ok sourceRows →
        Present locale p queueID row recipientRows sourceRows state := by
  refine .consequence (fun _ hstate => hstate) (ask_keeps (hfact.and (.any fun _ => .present hp))
    (fun answer => .all fun sourceRows => .all fun _ : answer = .ok sourceRows =>
      .present hp) rfl (fun _ _ => trivial) ?_)
    fun _ _ hstate => ⟨hstate.1.1, hstate.2⟩
  rintro state answer ⟨_, _⟩ ⟨_, _, hpresent⟩ ⟨hreads, _⟩ sourceRows rfl
  simp only [performs] at hreads
  cases hreads.1
  exact ⟨hpresent.message, hpresent.recipients, Except.ok.inj hreads.ok⟩

/-- What a load returns is stored, and stays so. -/
theorem loadRecord_stored (queueID : Text) :
    (among locale p jobs thread).Attempts fact (p.loadRecord queueID)
      (fun record state => fact state ∧ Stored locale p queueID record state) fun _ => True := by
  refine .bind (.attempt_any (readMessage_present hp hfact queueID)) fun message => ?_
  refine .of_bind fun row hmessage => .of_bind fun _ hvalid => ?_
  cases require_ok_iff.mp hmessage
  refine .bind (.attempt_any (.consequence ?_
    (readRecipients_present hp hfact row queueID) fun _ _ hstate => hstate))
    fun recipientRows => .of_bind fun _ _ => ?_
  · intro state hstate
    exact ⟨hstate.1, hstate.2 row rfl (loadMessage_ok_iff.mp hvalid).1⟩
  refine .bind (.attempt_any (.consequence ?_
    (readSources_present hp hfact row recipientRows queueID)
    fun _ _ hstate => hstate)) fun sourceRows => ?_
  · exact fun state hstate => ⟨hstate.1, hstate.2 recipientRows rfl⟩
  refine .of (fun record state hload hstate => ?_) fun _ _ => trivial
  exact ⟨hstate.1, (hstate.2 sourceRows rfl).stored hload⟩

end Load

end GotthMail
