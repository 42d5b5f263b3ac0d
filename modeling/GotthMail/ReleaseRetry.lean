/-
A release that stopped after Postfix had released the message.  The record says
that a release is under way or has failed, the queue file is no longer on hold,
and a second release looks for a message on hold before it does anything else.
-/
import GotthMail.HoldProtocol

namespace GotthMail

open Bytes Relational Calls

variable {locale : Locale} {p : Platform} {now : Time} {thread : Thread} {site : Site}
  {queueID : Text}

namespace Site

/-- The site while a thread works under the lock of a queue file. -/
def lockQueue (thread : Thread) (queueID : Text) (site : Site) : Site :=
  { site with world := { site.world with
    queueLocks := Function.update site.world.queueLocks
      (queueAdvisoryLockKey queueID) (some thread) } }

/-- The site while a thread shares the policy tables. -/
def sharePolicy (thread : Thread) (shared : Bool) (site : Site) : Site :=
  { site with world := { site.world with
    policyLocks := Function.update site.world.policyLocks thread shared } }

end Site

/-- The plan of a record as one query sees it. -/
def Platform.previewed (p : Platform) (record : QueueRecord) (db : Database) :
    Except Error QueueReleasePlan := do
  check (Database.releasable record.holdState || record.holdState == .released)
    "outbound queue message is not releasable"
  let governing ← p.resolvePolicySources db record.sources
  p.releasePlan record governing

section Alone

/-- With nobody else around, the three queries read one database. -/
theorem loadRecord_run :
    (p.loadRecord queueID).run.run (Site.respond locale p now thread) site =
      (site.world.db.loadQueueRecord locale p queueID, site) := by
  unfold Platform.loadRecord Database.loadQueueRecord Platform.loadQueueRecord
  -- Each query of a working site answers from the database that it has, so
  -- both sides fail at the first part that is not valid.
  change (Task.of (require (site.world.db.messages.find? queueID) _) >>= _ :
    Service QueueRecord).run.run _ site = _
  generalize site.world.db.messages.find? queueID = message
  cases message with
  | none => rfl
  | some row =>
    change (Task.of (p.loadMessage queueID row) >>= _ :
      Service QueueRecord).run.run _ site = (p.loadMessage queueID row >>= _, site)
    generalize hloaded : p.loadMessage queueID row = loaded
    cases loaded with
    | error reason => rfl
    | ok record =>
      change (Task.of ((site.world.db.queueRecipients locale queueID).foldlM
        p.scanRecipient []) >>= _ : Service QueueRecord).run.run _ site = _
      generalize (site.world.db.queueRecipients locale queueID) = rows
      generalize rows.foldlM p.scanRecipient [] = scanned
      cases scanned with
      | error reason => rfl
      | ok recipients =>
        change (p.loadMessage queueID row >>= _, site) = _
        rw [hloaded]

theorem previewRecord_run (record : QueueRecord) :
    (p.previewRecord record).run.run (Site.respond locale p now thread) site =
      (p.previewed record site.world.db, site) := by
  unfold Platform.previewRecord Platform.previewed
  generalize check (Database.releasable record.holdState ||
    record.holdState == .released) _ = checked
  cases checked with
  | error reason => rfl
  | ok u =>
    change (Task.of (p.resolvePolicySources site.world.db record.sources) >>= _ :
      Service QueueReleasePlan).run.run _ site = _
    generalize p.resolvePolicySources site.world.db record.sources = resolved
    cases resolved with
    | error reason => rfl
    | ok governing => rfl

theorem loadQueue_run :
    (p.loadQueue queueID).run.run (Site.respond locale p now thread) site =
      (site.world.db.load locale p queueID, site) := by
  unfold Platform.loadQueue Database.load
  generalize check (validLongQueueID queueID) _ = checked
  cases checked with
  | error reason => rfl
  | ok u => exact loadRecord_run

theorem preview_run :
    (p.preview queueID).run.run (Site.respond locale p now thread) site =
      (do check (validLongQueueID queueID) "invalid outbound queue release preview"
          let record ← site.world.db.load locale p queueID
          p.previewed record site.world.db, site) := by
  unfold Platform.preview
  generalize check (validLongQueueID queueID) "invalid outbound queue release preview" = checked
  cases checked with
  | error reason => rfl
  | ok u =>
    change (p.loadQueue queueID >>= _ : Service _).run.run _ site = _
    have hload : (p.loadQueue queueID).run.run (Site.respond locale p now thread) site =
          (site.world.db.load locale p queueID, site) := loadQueue_run
    generalize site.world.db.load locale p queueID = loaded at hload ⊢
    cases loaded with
    | error reason => exact Task.run_bind_error hload
    | ok record => exact (Task.run_bind_ok hload).trans (previewRecord_run record)

/-- The lock is given back, and the result is that of the body. -/
theorem withQueueLock_run {body : Service QueueOutcome}
    {result : Except Error QueueOutcome} {after : Site}
    (hfree : site.world.queueLocks (queueAdvisoryLockKey queueID) = none)
    (hbody : body.run.run (Site.respond locale p now thread)
      (site.lockQueue thread queueID) = (result, after)) :
    (withQueueLock queueID body).run.run (Site.respond locale p now thread) site =
      (result, (after.respond locale p now thread
        (.unlockQueue (queueAdvisoryLockKey queueID))).2) := by
  have hlock : (Task.attempt (ask (.lockQueue (queueAdvisoryLockKey queueID))) :
      Service Unit).run.run (Site.respond locale p now thread) site =
        (.ok (), site.lockQueue thread queueID) := by
    change site.respond locale p now thread (.lockQueue _) = _
    simp only [Site.respond, hfree, if_true]
    rfl
  have hresult := Task.run_observe (ε := Error)
    (Site.respond locale p now thread) body.run (site.lockQueue thread queueID)
  rw [hbody] at hresult
  unfold withQueueLock
  rw [Task.run_bind_ok hlock, Task.run_bind_ok hresult]
  cases result with
  | error reason => rfl
  | ok outcome => rfl

theorem withPolicyLock_run {α : Type} {body : Service α} {result : Except Error α} {after : Site}
    (hbody : body.run.run (Site.respond locale p now thread)
      (site.sharePolicy thread true) = (result, after)) :
    (withPolicyLock body).run.run (Site.respond locale p now thread) site =
      (result, after.sharePolicy thread false) := by
  have hresult := Task.run_observe (ε := Error)
    (Site.respond locale p now thread) body.run (site.sharePolicy thread true)
  rw [hbody] at hresult
  have hlock : (Task.attempt (ask .lockPolicy) : Service Unit).run.run
      (Site.respond locale p now thread) site = (.ok (), site.sharePolicy thread true) := rfl
  unfold withPolicyLock
  rw [Task.run_bind_ok hlock, Task.run_bind_ok hresult]
  rfl

theorem preview_run_ok {plan : QueueReleasePlan} (hpreview : ((p.preview queueID).run.run
      (Site.respond locale p now thread) site).1 = .ok plan) :
    validLongQueueID queueID = true ∧
      ∃ record, site.world.db.loadQueueRecord locale p queueID = .ok record ∧
        p.previewed record site.world.db = .ok plan := by
  rw [preview_run] at hpreview
  simp only [bind_ok_iff, check_ok_iff, load_ok_iff] at hpreview
  obtain ⟨_, hid, record, ⟨_, hload⟩, hplan⟩ := hpreview
  exact ⟨hid, record, hload, hplan⟩

/-- A confirmation has the form that a release asks for. -/
theorem validLowerHexDigest_of_previewed {record : QueueRecord} {db : Database}
    {plan : QueueReleasePlan} (hplan : p.previewed record db = .ok plan) :
    validLowerHexDigest plan.confirmationHash = true := by
  simp only [Platform.previewed, Platform.releasePlan, bind_ok_iff, pure_ok_iff] at hplan
  obtain ⟨_, _, governing, _, _, _, snapshot, _, rfl⟩ := hplan
  exact validLowerHexDigest_sumHex _

end Alone

/-- What the preview of a queue file asks for. -/
def Site.confirmation (locale : Locale) (p : Platform) (now : Time)
    (thread : Thread) (site : Site) (queueID : Text) : Option Text :=
  ((p.preview queueID).run.run (Site.respond locale p now thread) site).1.toOption.map
    QueueReleasePlan.confirmationHash

/-- Postfix has released the message, and the record does not say so yet. -/
structure HalfReleased (locale : Locale) (p : Platform) (site : Site)
    (queueID : Text) (record : QueueRecord) (metadata : QueueMetadata) : Prop where
  stored : site.world.db.loadQueueRecord locale p queueID = .ok record
  state : record.holdState = .releaseError ∨ record.holdState = .releaseReconciling
  file : site.files queueID = some metadata
  same : p.matchesQueueMetadata record metadata = true
  released : metadata.held = false

section Retry

variable {record : QueueRecord} {metadata : QueueMetadata} {operator : Operator}

/-- The release is confirmed, and the observation of an unheld message ends
it. -/
theorem releaseConfirmed_run (hstate : record.holdState = .releaseError ∨
      record.holdState = .releaseReconciling)
    (hreleased : metadata.held = false) :
    (p.releaseConfirmed operator record queueID (.ok metadata)).run.run
      (Site.respond locale p now thread) site =
        (.error (.text "held outbound queue metadata is unavailable"), site) := by
  unfold Platform.releaseConfirmed
  rcases hstate with hstate | hstate <;>
    simp only [hstate, hreleased, Except.toOption, Option.any, Database.releasable] <;>
    rfl

theorem releaseLocked_run {plan : QueueReleasePlan}
    (hhalf : HalfReleased locale p site queueID record metadata)
    (hplan : p.previewed record site.world.db = .ok plan) :
    (p.releaseLocked operator queueID plan.confirmationHash).run.run
      (Site.respond locale p now thread) site =
        (.error (.text "held outbound queue metadata is unavailable"),
          (site.sharePolicy thread true).sharePolicy thread false) := by
  unfold Platform.releaseLocked
  have hload : (p.loadRecord queueID).run.run
      (Site.respond locale p now thread) site = (.ok record, site) := by
    rw [loadRecord_run, hhalf.stored]
  rw [Task.run_bind_ok hload]
  apply withPolicyLock_run
  have hpreview : (p.previewRecord record).run.run
      (Site.respond locale p now thread) (site.sharePolicy thread true) =
        (.ok plan, site.sharePolicy thread true) := by
    rw [previewRecord_run]
    exact congrArg (·, _) hplan
  have hconfirmed : (Task.of (check (plan.confirmationHash ==
      plan.confirmationHash) "outbound queue release confirmation is stale") :
        Service Unit).run.run (Site.respond locale p now thread)
        (site.sharePolicy thread true) = (.ok (), site.sharePolicy thread true) := by
    rw [beq_self_eq_true]
    rfl
  have hinspect : (Task.observe (ask (.inspect queueID)) :
      Service (Except Error QueueMetadata)).run.run
        (Site.respond locale p now thread) (site.sharePolicy thread true) =
        (.ok (.ok metadata), site.sharePolicy thread true) := by
    change (Except.ok (require (site.files queueID) _), _) = _
    rw [hhalf.file]
    rfl
  rw [Task.run_bind_ok hpreview, Task.run_bind_ok hconfirmed, Task.run_bind_ok hinspect]
  exact releaseConfirmed_run hhalf.state hhalf.released

/-- A release that comes back to a message that Postfix has already released
fails, whoever asks and however often: it ends before it writes anything, so
the record keeps its state. -/
theorem release_retry_fails {confirmed : Text}
    (hhalf : HalfReleased locale p site queueID record metadata)
    (hconfirmed : site.confirmation locale p now thread queueID = some confirmed)
    (hfree : site.world.queueLocks (queueAdvisoryLockKey queueID) = none)
    (hnamed : operator.named = true) :
    let final := (p.release operator queueID confirmed).run.run
      (Site.respond locale p now thread) site
    final.1 = .error (.text "held outbound queue metadata is unavailable") ∧
      final.2.world.db = site.world.db ∧ final.2.files = site.files := by
  unfold Site.confirmation at hconfirmed
  cases hpreview : ((p.preview queueID).run.run (Site.respond locale p now thread) site).1 with
  | error reason => rw [hpreview] at hconfirmed; cases hconfirmed
  | ok plan =>
    rw [hpreview] at hconfirmed
    cases hconfirmed
    obtain ⟨hid, found, hfound, hplan⟩ := preview_run_ok hpreview
    cases hhalf.stored.symm.trans hfound
    have hlocked : HalfReleased locale p (site.lockQueue thread queueID)
        queueID record metadata :=
      ⟨hhalf.stored, hhalf.state, hhalf.file, hhalf.same, hhalf.released⟩
    have hbody : (p.releaseLocked operator queueID
        plan.confirmationHash).run.run (Site.respond locale p now thread)
          (site.lockQueue thread queueID) = _ := releaseLocked_run hlocked hplan
    have hrun := withQueueLock_run hfree hbody
    unfold Platform.release
    rw [hnamed, hid, validLowerHexDigest_of_previewed hplan]
    exact ⟨congrArg Prod.fst hrun, congrArg (·.2.world.db) hrun, congrArg (·.2.files) hrun⟩

end Retry

/-- A release of the notice stops right after Postfix has carried it out, and
its session gives up the locks. -/
def crashedSite : Site :=
  let stopped := ((asciiPlatform.release heldOperator (ascii "3bQzXk5Wn4z1v")
    heldConfirmation).run.advance (Site.respond byteLocale asciiPlatform 3 0) 10 heldSite).2
  { stopped with world := exits 0 stopped.world }

/-- The two sides of a queue file as one may look at them. -/
def Site.showsHalfReleased (locale : Locale) (p : Platform) (site : Site) (queueID : Text) : Bool :=
  match site.world.db.loadQueueRecord locale p queueID, site.files queueID with
  | .ok record, some metadata =>
    decide (record.holdState = .releaseError ∨ record.holdState = .releaseReconciling) &&
    p.matchesQueueMetadata record metadata && !metadata.held
  | _, _ => false

theorem exists_halfReleased {locale : Locale} {p : Platform} {site : Site}
    {queueID : Text} (hshows : site.showsHalfReleased locale p queueID = true) :
    ∃ record metadata, HalfReleased locale p site queueID record metadata := by
  unfold Site.showsHalfReleased at hshows
  split at hshows
  · next record metadata hstored hfile =>
      simp only [Bool.and_eq_true, decide_eq_true_eq, Bool.not_eq_true'] at hshows
      exact ⟨record, metadata, hstored, hshows.1.1, hfile, hshows.1.2, hshows.2⟩
  · cases hshows

set_option maxRecDepth 100000 in
/-- The evaluations of the sample, all of the same site. -/
theorem crashedSite_shows :
    crashedSite.showsHalfReleased byteLocale asciiPlatform (ascii "3bQzXk5Wn4z1v") = true ∧
      crashedSite.confirmation byteLocale asciiPlatform 4 1
        (ascii "3bQzXk5Wn4z1v") = some heldConfirmation ∧
      crashedSite.world.queueLocks (queueAdvisoryLockKey (ascii "3bQzXk5Wn4z1v")) = none ∧
      ((asciiPlatform.release heldOperator (ascii "3bQzXk5Wn4z1v")
        heldConfirmation).run.run (Site.respond byteLocale asciiPlatform 4 1)
          crashedSite).1.toOption.isNone = true := by
  decide +kernel

/-- The second release of the notice fails, although Postfix and policy agree
with it. -/
theorem release_retry_fails_crashed :
    ((asciiPlatform.release heldOperator (ascii "3bQzXk5Wn4z1v")
      heldConfirmation).run.run (Site.respond byteLocale asciiPlatform 4 1) crashedSite).1 =
      .error (.text "held outbound queue metadata is unavailable") := by
  obtain ⟨record, metadata, hhalf⟩ := exists_halfReleased crashedSite_shows.1
  exact (release_retry_fails hhalf crashedSite_shows.2.1 crashedSite_shows.2.2.1 (by decide)).1

/-- Postfix has released the notice and policy permits it, and the release with
the confirmation of the current preview does not succeed. -/
theorem crashed_release_stuck :
    (∃ record metadata, HalfReleased byteLocale asciiPlatform crashedSite
      (ascii "3bQzXk5Wn4z1v") record metadata) ∧
    crashedSite.confirmation byteLocale asciiPlatform 4 1
      (ascii "3bQzXk5Wn4z1v") = some heldConfirmation ∧
    ∀ outcome, ((asciiPlatform.release heldOperator (ascii "3bQzXk5Wn4z1v")
      heldConfirmation).run.run (Site.respond byteLocale asciiPlatform 4 1)
        crashedSite).1 ≠ .ok outcome := by
  obtain ⟨hshows, hconfirmation, _, hrefused⟩ := crashedSite_shows
  refine ⟨exists_halfReleased hshows, hconfirmation, ?_⟩
  intro outcome houtcome
  rw [houtcome] at hrefused
  cases hrefused

end GotthMail
