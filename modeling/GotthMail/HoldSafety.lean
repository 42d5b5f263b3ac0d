/-
The two services under interference.  Every call that a reconciliation or a
release makes is allowed in the moment it is made, whatever the other threads
do.
-/
import GotthMail.Knowledge

namespace GotthMail

open Bytes Relational Calls

variable {locale : Locale} {p : Platform} {jobs : Thread → Job}
  {thread other : Thread} {queueID : Text} {record : QueueRecord}

theorem Stored.recordID {state : Instant} (hstored : Stored locale p queueID record state) :
    record.queueID = queueID := by
  obtain ⟨current, hload, hsame⟩ := hstored
  obtain ⟨_, _, hid⟩ := find?_of_loadQueueRecord hload
  exact hsame.queueID.symm.trans hid

section Steps

variable {fact : Instant → Prop}

/-- An allowed call about whose answer nothing is asked. -/
theorem ask_any {call : Call}
    (hallowed : ∀ state, fact state → allowed locale p jobs thread state call) :
    (among locale p jobs thread).Triple fact (ask call) fun _ _ => True :=
  Setting.Triple.perform hallowed (fun _ _ => trivial) fun _ => .const True

/-- Reading the clock changes nothing that a thread knows. -/
theorem mover_owned {except : Set Call} (operator : Operator) (id : Text)
    (hfact : Endures locale p thread except fact) (hexcept : except ⊆ guardedCalls queueID) :
    (among locale p jobs thread).Attempts (fun state => Owns thread queueID state ∧ fact state)
      (operator.mover id) (fun mover state => (Owns thread queueID state ∧ fact state) ∧
        mover.queueID = id) fun _ => True := by
  have hclock : Call.clock ∉ except := by
    intro hmem
    cases hexcept hmem
  refine .bind (.observe (ask_owned queueID hfact hexcept hclock
    (fun _ => .const True) rfl (fun _ _ _ => trivial) fun _ _ _ => trivial)) fun now => ?_
  exact .pure fun _ hstate => ⟨⟨hstate.1, hstate.2.1⟩, rfl⟩

theorem reload_any (hp : p.Lookup) (queueID : Text) :
    (among locale p jobs thread).Obeys fact (p.loadRecord queueID) :=
  .consequence (fun _ _ => trivial) (loadRecord_stored hp (.const True) queueID)
    (fun _ _ _ => trivial) fun _ _ => trivial

/-- The thread's own inspection is the last one. -/
theorem inspect_owned {events : List (Event interface)} (hfact : Endures locale p thread ∅ fact)
    (hevents : ∀ state, fact state → events.Sublist state.history) :
    (among locale p jobs thread).Triple (fun state => Owns thread queueID state ∧ fact state)
      (ask (.inspect queueID)) fun answer state => Owns thread queueID state ∧ fact state ∧
        (⟨thread, .inspect queueID, answer⟩ :: events).Sublist state.history ∧
        ∀ metadata, answer = .ok metadata →
          LastSeen thread queueID metadata state := by
  refine ask_owned queueID hfact (Set.empty_subset _) (Set.notMem_empty _)
    (fun answer => (Endures.happened _).and
      (.all fun _ => .all fun _ => Endures.lastSeen.mono inspect_subset)) rfl
      (fun _ howns _ => howns) ?_
  intro state answer after howns hstate hacts
  rw [hacts.2]
  refine ⟨(hevents state hstate).cons_cons _, ?_⟩
  rintro metadata rfl
  rw [LastSeen, hacts.2]
  exact List.find?_cons_of_pos (by simp [isInspection])

theorem lockQueue_owns :
    (among locale p jobs thread).Triple (fun _ => True)
      (ask (.lockQueue (queueAdvisoryLockKey queueID)))
      fun answer state => answer = .ok () → Owns thread queueID state := by
  refine Setting.Triple.perform (fun _ _ => trivial) ?_
    fun answer => (Endures.all fun _ => .owns).stable
  rintro state answer after _ ⟨hperforms, _⟩ rfl
  rcases hperforms with ⟨_, _, hafter⟩ | ⟨_, _, herror⟩
  · rw [Owns, hafter]
    exact Function.update_self _ _ _
  · cases herror

/-- The lock is owned while the body runs. -/
theorem withQueueLock_safe {body : Service QueueOutcome}
    (hbody : (among locale p jobs thread).Obeys (Owns thread queueID) body) :
    (among locale p jobs thread).Obeys (fun _ => True) (withQueueLock queueID body) := by
  refine .bind (.attempt_any lockQueue_owns) fun _ => ?_
  refine .bind (.observe (.consequence (fun _ howns => howns rfl) hbody
    fun _ _ hstate => hstate)) fun result => ?_
  refine .bind (.observe (ask_any fun _ _ => trivial)) fun unlocked => ?_
  refine .of_bind fun outcome _ => ?_
  cases unlocked with
  | ok _ => exact .pure fun _ _ => trivial
  | error reason => exact .pure fun _ _ => trivial

/-- The policy tables are shared while the body runs. -/
theorem withPolicyLock_safe {α : Type} {body : Service α} (hfact : Endures locale p thread ∅ fact)
    (hbody : (among locale p jobs thread).Obeys
      (fun state => Owns thread queueID state ∧ fact state ∧ Shares thread state) body) :
    (among locale p jobs thread).Obeys (fun state => Owns thread queueID state ∧ fact state)
      (withPolicyLock body) := by
  refine .bind (.attempt_any (ask_owned queueID hfact (Set.empty_subset _)
    (Set.notMem_empty _) (fun answer => .all fun _ : answer = .ok () => .shares)
    rfl (fun _ _ _ => trivial) ?_)) fun _ => ?_
  · rintro state answer after _ _ ⟨hperforms, _⟩ rfl
    rcases hperforms with ⟨_, hafter⟩ | ⟨_, _, herror⟩
    · rw [Shares, hafter]
      exact Function.update_self _ _ _
    · cases herror
  refine .bind (.observe (.consequence
    (fun _ hstate => ⟨hstate.1, hstate.2.1, hstate.2.2 rfl⟩) hbody
    fun _ _ hstate => hstate)) fun result => ?_
  refine .bind (.observe (ask_any fun _ _ => trivial)) fun _ => ?_
  exact .of (fun _ _ _ _ => trivial) fun _ _ => trivial

end Steps

section Release

variable (hp : p.Lookup) (operator : Operator) {confirmed : Text}
include hp

theorem releaseFail_safe (code : String) :
    (among locale p jobs thread).Obeys (fun state => Owns thread queueID state ∧
        Stored locale p queueID record state)
      (p.releaseFail operator record code) := by
  refine .bind (mover_owned operator _ (.stored hp) (Set.empty_subset _)) fun mover => ?_
  refine .bind (.attempt_any (ask_any ?_)) fun _ => ?_
  · rintro state ⟨⟨howns, hstored⟩, hmover⟩
    rw [hstored.recordID] at hmover
    refine ⟨hmover ▸ howns, fun hreleased => ?_⟩
    cases hreleased
  · exact .bind (reload_any hp _) fun _ => .pure fun _ _ => trivial

/-- The policy under which a release was confirmed. -/
def Confirmed (locale : Locale) (p : Platform) (thread : Thread)
    (queueID confirmed : Text) (record : QueueRecord) (state : Instant) : Prop :=
  Stored locale p queueID record state ∧ ∃ governing plan, (Shares thread state ∧
      p.resolvePolicySources state.world.db record.sources = .ok governing) ∧
    p.releasePlan record governing = .ok plan ∧ plan.confirmationHash = confirmed

theorem Endures.confirmedRelease :
    Endures locale p thread ∅ (Confirmed locale p thread queueID confirmed record) :=
  (Endures.stored hp).and (.any fun _ => .any fun _ => (Endures.resolved _ _).and (.const _))

/-- A preview under the policy lock stays what it is. -/
theorem previewRecord_safe :
    (among locale p jobs thread).Attempts (fun state => Owns thread queueID state ∧
        Stored locale p queueID record state ∧ Shares thread state)
      (p.previewRecord record) (fun plan state => Owns thread queueID state ∧
        Confirmed locale p thread queueID plan.confirmationHash record state)
      fun _ => True := by
  refine .of_bind fun _ _ => ?_
  refine .bind (.attempt_any (ask_owned queueID
    ((Endures.stored hp).and Endures.shares) (Set.empty_subset _)
    (Set.notMem_empty _) (fun answer => .all fun governing =>
      .all fun _ : answer = .ok governing => .resolved record.sources governing)
    rfl
    (fun _ _ _ => trivial) ?_)) fun governing => ?_
  · rintro state answer ⟨_, _⟩ _ ⟨_, hshares⟩ ⟨hreads, _⟩ governing rfl
    simp only [performs] at hreads
    cases hreads.1
    exact ⟨hshares, hreads.ok⟩
  · refine .of (fun plan state hplan hstate => ?_) fun _ _ => trivial
    exact ⟨hstate.1, hstate.2.1.1, governing, plan, hstate.2.2 governing rfl, hplan, rfl⟩

omit hp in
/-- What a release knows when it tells Postfix. -/
theorem releaseCleared {state : Instant} {metadata : QueueMetadata}
    (hconfirmed : Confirmed locale p thread queueID confirmed record state)
    (hreleasing : Releasing thread queueID state) (hseen : LastSeen thread queueID metadata state)
    (hheld : metadata.held = true) (hsame : p.matchesQueueMetadata record metadata = true) :
    ∃ current governing, ReleaseCleared locale p thread queueID confirmed state
      current governing metadata := by
  obtain ⟨⟨current, hload, hfile⟩, governing, plan, ⟨_, hresolved⟩, hplan, hhash⟩ := hconfirmed
  obtain ⟨start, row, _, _, hrow, hstate⟩ := hreleasing
  simp only [Platform.releasePlan, bind_ok_iff, check_ok_iff, pure_ok_iff,
    Prod.exists, List.all_eq_true, beq_iff_eq] at hplan
  obtain ⟨_, hpermitted, revisions, snapshot, hsnapshot, rfl⟩ := hplan
  refine ⟨current, governing, ?_⟩
  exact
    { stored := hload
      policy := by rw [hfile.sources]; exact hresolved
      permitted := by
        rw [hfile.recipients, hfile.queueID]
        exact hpermitted
      confirmed := ⟨revisions, snapshot, hsnapshot, by
        rw [hfile.confirmation]
        exact hhash.symm⟩
      holdState := by
        obtain ⟨found, hfound, _, _, _, _, rfl⟩ := loadQueueRecord_ok_iff.mp hload
        cases hrow.symm.trans hfound
        exact hstate
      seen := hseen
      held := hheld
      same := by rw [hfile.matchesQueueMetadata]; exact hsame }

variable (hjob : jobs thread = .release operator queueID confirmed)
include hjob

/-- The release is recorded after the message has been seen without a hold. -/
theorem releaseVerify_safe {start : Mover} (hstart : start.queueID = queueID) :
    (among locale p jobs thread).Obeys (fun state => Owns thread queueID state ∧
        Stored locale p queueID record state ∧
        List.Sublist [releaseStarted thread start] state.history)
      (p.releaseVerify operator record queueID) := by
  refine .bind (.observe (inspect_owned ((Endures.stored hp).and (.happened _))
    fun _ hstate => hstate.2)) fun answer => ?_
  cases answer with
  | error reason =>
    exact .consequence (fun _ hstate => ⟨hstate.1, hstate.2.1.1⟩)
      (releaseFail_safe hp operator _) (fun _ _ _ => trivial) fun _ _ => trivial
  | ok metadata =>
    dsimp only
    split
    · exact .consequence (fun _ hstate => ⟨hstate.1, hstate.2.1.1⟩)
        (releaseFail_safe hp operator _) (fun _ _ _ => trivial) fun _ _ => trivial
    · next hverified =>
        simp only [Bool.or_eq_true, Bool.not_eq_true', not_or,
          Bool.not_eq_true, Bool.not_eq_false] at hverified
        refine .bind (.consequence (fun _ hstate => ⟨hstate.1, hstate.2.1.1, hstate.2.2.1⟩)
          (mover_owned operator _ ((Endures.stored hp).and (.happened _))
            (Set.empty_subset _)) (fun _ _ hstate => hstate)
          fun _ hstate => hstate) fun mover => ?_
        refine .bind (.attempt_any (ask_any ?_)) fun _ => ?_
        · rintro state ⟨⟨howns, hstored, hevents⟩, hmover⟩
          rw [hstored.recordID] at hmover
          obtain ⟨current, hload, hfile⟩ := hstored
          subst hmover
          refine ⟨howns, fun _ => ⟨⟨operator, confirmed, hjob⟩, start, metadata,
            current, hstart, hevents, hverified.1, hload, ?_⟩⟩
          rw [hfile.matchesQueueMetadata]
          exact hverified.2
        · exact .bind (reload_any hp _) fun _ => .pure fun _ _ => trivial

/-- Postfix is told to release a message that policy permits. -/
theorem releaseStarted_safe {metadata : QueueMetadata} (hheld : metadata.held = true)
    (hsame : p.matchesQueueMetadata record metadata = true) :
    (among locale p jobs thread).Obeys (fun state => Owns thread queueID state ∧
        (Confirmed locale p thread queueID confirmed record state ∧
          LastSeen thread queueID metadata state) ∧
        Releasing thread queueID state)
      (p.releaseStarted operator record queueID) := by
  have hfacts : Endures locale p thread (guardedCalls queueID) fun state =>
      (Confirmed locale p thread queueID confirmed record state ∧
        LastSeen thread queueID metadata state) ∧
      Releasing thread queueID state :=
    (((Endures.confirmedRelease hp).mono (Set.empty_subset _)).and
      (Endures.lastSeen.mono inspect_subset)).and .releasing
  refine .bind (.observe (ask_owned queueID hfacts (fun _ hmem => hmem)
    (by simp [guardedCalls, Call.guarded]) (fun _ => .const True) rfl ?_
    fun _ _ _ => trivial)) fun answer => ?_
  · rintro state _ ⟨⟨hconfirmed, hseen⟩, hreleasing⟩
    obtain ⟨current, governing, hcleared⟩ := releaseCleared hconfirmed hreleasing hseen hheld hsame
    exact ⟨operator, confirmed, current, governing, metadata, hjob, hcleared⟩
  · cases answer with
    | error reason =>
      exact .consequence (fun _ hstate => ⟨hstate.1, hstate.2.1.1.1.1⟩)
        (releaseFail_safe hp operator _) (fun _ _ _ => trivial) fun _ _ => trivial
    | ok _ =>
      rintro state ⟨howns, ⟨⟨hconfirmed, _⟩, start, row, hstart, hstarted, _⟩, _⟩
      exact releaseVerify_safe hp operator hjob hstart state
        ⟨howns, hconfirmed.1, List.singleton_sublist.mpr hstarted⟩

omit hp hjob in
/-- A committed start leaves the row in the state of a release. -/
theorem releasing_of_start {mover : Mover} {state after : Instant}
    (hmover : mover.queueID = queueID)
    (hacts : (machine locale p).Acts thread state (.startRelease mover) (.ok ())
      after) : Releasing thread queueID after := by
  subst hmover
  rcases hacts.1 with ⟨_, next, hstart, hafter, _⟩ | ⟨_, _, herror⟩
  · obtain ⟨row, _, _, hmoved, _⟩ := moveQueue_ok hstart
    refine ⟨mover, row.start .releaseReconciling mover.now, rfl, ?_, ?_, .inl rfl⟩
    · rw [hacts.2]
      exact List.mem_cons_self
    · rw [hafter]
      exact hmoved.now
  · cases herror

theorem releaseConfirmed_safe (inspected : Except Error QueueMetadata) :
    (among locale p jobs thread).Obeys (fun state => Owns thread queueID state ∧
        Confirmed locale p thread queueID confirmed record state ∧
        ∀ metadata, inspected = .ok metadata → LastSeen thread queueID metadata state)
      (p.releaseConfirmed operator record queueID inspected) := by
  unfold Platform.releaseConfirmed
  split
  · exact .of_bind fun _ _ => .pure fun _ _ => trivial
  · refine .of_bind fun _ _ => .of_bind fun _ hseen => ?_
    cases inspected with
    | error reason => cases check_ok_iff.mp hseen
    | ok metadata =>
      simp only [check_ok_iff, Except.toOption, Option.any_some,
        Bool.and_eq_true, beq_iff_eq] at hseen
      have hfacts : Endures locale p thread {.inspect queueID} fun state =>
          Confirmed locale p thread queueID confirmed record state ∧
            LastSeen thread queueID metadata state :=
        ((Endures.confirmedRelease hp).mono (Set.empty_subset _)).and .lastSeen
      refine .bind (.consequence (fun _ hstate => ⟨hstate.1, hstate.2.1, hstate.2.2 metadata rfl⟩)
        (mover_owned operator _ hfacts inspect_subset)
        (fun _ _ hstate => hstate) fun _ hstate => hstate) fun mover => ?_
      refine .bind (.attempt_any (.consequence ?_ (ask_owned queueID
        (hfacts.and (.const (mover.queueID = queueID))) inspect_subset
        (by simp) (fun answer => .all fun _ : answer = .ok () => .releasing) rfl
        ?_ ?_) fun _ _ hstate => hstate)) fun _ => ?_
      · rintro state ⟨⟨howns, hfact⟩, hmover⟩
        exact ⟨howns, hfact, hmover.trans hfact.1.1.recordID⟩
      · rintro state howns ⟨_, rfl⟩
        exact howns
      · rintro state answer after _ ⟨_, hmover⟩ hacts rfl
        exact releasing_of_start hmover hacts
      · exact .consequence (fun _ hstate => ⟨hstate.1, hstate.2.1.1, hstate.2.2 rfl⟩)
          (releaseStarted_safe hp operator hjob hseen.1 hseen.2)
          (fun _ _ _ => trivial) fun _ _ => trivial

theorem releaseLocked_safe :
    (among locale p jobs thread).Obeys (Owns thread queueID)
      (p.releaseLocked operator queueID confirmed) := by
  refine .bind (loadRecord_stored hp .owns queueID) fun record => ?_
  refine withPolicyLock_safe (.stored hp) ?_
  refine .bind (previewRecord_safe hp) fun plan => .of_bind fun _ hplan => ?_
  cases beq_iff_eq.mp (check_ok_iff.mp hplan)
  refine .bind (.observe (inspect_owned (Endures.confirmedRelease hp)
    fun _ _ => List.nil_sublist _)) fun inspected => ?_
  exact .consequence (fun _ hstate => ⟨hstate.1, hstate.2.1, hstate.2.2.2⟩)
    (releaseConfirmed_safe hp operator hjob inspected) (fun _ _ _ => trivial) fun _ _ => trivial

theorem release_safe :
    (among locale p jobs thread).Obeys (fun _ => True) (p.release operator queueID confirmed) :=
  .of_bind fun _ _ => withQueueLock_safe (releaseLocked_safe hp operator hjob)

end Release

section Reconcile

variable (hp : p.Lookup) (operator : Operator) {start : Mover} {metadata : QueueMetadata}
include hp

theorem reconcileFail_safe (code : String) :
    (among locale p jobs thread).Obeys (fun state => Owns thread queueID state ∧
        Stored locale p queueID record state)
      (p.reconcileFail operator record code) := by
  refine .bind (mover_owned operator _ (.stored hp) (Set.empty_subset _)) fun mover => ?_
  refine .bind (.attempt_any (ask_any ?_)) fun _ => ?_
  · rintro state ⟨⟨howns, hstored⟩, hmover⟩
    rw [hstored.recordID] at hmover
    refine ⟨hmover ▸ howns, fun happlied => ?_⟩
    cases happlied
  · exact .bind (reload_any hp _) fun _ => .pure fun _ _ => trivial

/-- The hold is recorded after it has been seen. -/
theorem reconcileApplied_safe (hjob : jobs thread = .reconcile operator queueID)
    (hstart : start.queueID = queueID) (hheld : metadata.held = true)
    (hsame : p.matchesQueueMetadata record metadata = true) :
    (among locale p jobs thread).Obeys (fun state => Owns thread queueID state ∧
        Stored locale p queueID record state ∧
        List.Sublist [⟨thread, .inspect queueID, .ok metadata⟩,
          reconciliationStarted thread start] state.history)
      (p.reconcileApplied operator record queueID) := by
  refine .bind (mover_owned operator _ ((Endures.stored hp).and
    (.happened _)) (Set.empty_subset _)) fun mover => ?_
  refine .bind (.attempt_any (ask_any ?_)) fun _ => ?_
  · rintro state ⟨⟨howns, hstored, hevents⟩, hmover⟩
    rw [hstored.recordID] at hmover
    obtain ⟨current, hload, hfile⟩ := hstored
    subst hmover
    refine ⟨howns, fun _ => ⟨⟨operator, hjob⟩, start, metadata, current, hstart,
      hevents, hheld, hload, ?_⟩⟩
    rw [hfile.matchesQueueMetadata]
    exact hsame
  · exact .bind (reload_any hp _) fun _ => .pure fun _ _ => trivial

/-- What a reconciliation knows once its start is committed. -/
def Reconciling (locale : Locale) (p : Platform) (thread : Thread)
    (record : QueueRecord) (queueID : Text) (start : Mover) (state : Instant) :
    Prop :=
  Stored locale p queueID record state ∧
    List.Sublist [reconciliationStarted thread start] state.history

omit hp in
theorem Endures.reconciling (hp : p.Lookup) :
    Endures locale p thread ∅ (Reconciling locale p thread record queueID start) :=
  (Endures.stored hp).and (.happened _)

theorem start_reconciling {mover : Mover} :
    (among locale p jobs thread).Triple (fun state => (Owns thread queueID state ∧
        Stored locale p queueID record state) ∧ mover.queueID = record.queueID)
      (ask (.startReconciliation mover)) fun answer state => Owns thread queueID state ∧
        (Stored locale p queueID record state ∧
          List.Sublist [⟨thread, .startReconciliation mover, answer⟩]
            state.history) ∧ mover.queueID = queueID := by
  have hstored : Endures locale p thread ∅ fun state =>
      Stored locale p queueID record state ∧ mover.queueID = queueID :=
    (Endures.stored hp).and (.const _)
  refine .consequence ?_ (ask_owned queueID hstored (Set.empty_subset _) (Set.notMem_empty _)
    (fun answer => .happened [⟨thread, .startReconciliation mover, answer⟩]) rfl ?_ ?_) ?_
  · rintro state ⟨⟨howns, hfile⟩, hmover⟩
    exact ⟨howns, hfile, hmover.trans hfile.recordID⟩
  · rintro state howns ⟨_, rfl⟩
    exact howns
  · intro state answer after _ _ hacts
    rw [hacts.2]
    exact (List.nil_sublist _).cons_cons _
  · rintro answer state ⟨howns, ⟨hfile, hmover⟩, hevents⟩
    exact ⟨howns, ⟨hfile, hevents⟩, hmover⟩

theorem reconcileFail_started (code : String) {rest : Instant → Prop} :
    (among locale p jobs thread).Obeys (fun state => Owns thread queueID state ∧
        Reconciling locale p thread record queueID start state ∧ rest state)
      (p.reconcileFail operator record code) :=
  .consequence (fun _ hstate => ⟨hstate.1, hstate.2.1.1⟩)
    (reconcileFail_safe hp operator code) (fun _ _ _ => trivial) fun _ _ => trivial

variable (hjob : jobs thread = .reconcile operator queueID) (hstart : start.queueID = queueID)
include hjob hstart

theorem reconcileHold_safe :
    (among locale p jobs thread).Obeys (fun state => Owns thread queueID state ∧
        Reconciling locale p thread record queueID start state)
      (p.reconcileHold operator record queueID) := by
  refine .bind (.observe (ask_owned queueID (.reconciling hp) (Set.empty_subset _)
    (Set.notMem_empty _) (fun _ => .const True) rfl (fun _ howns _ => howns) fun _ _ _ => trivial))
    fun answer => ?_
  cases answer with
  | error reason => exact reconcileFail_started hp operator _
  | ok _ =>
    refine .bind (.observe (.consequence (fun _ hstate => ⟨hstate.1, hstate.2.1⟩)
      (inspect_owned (.reconciling hp) fun _ hstate => hstate.2)
      fun _ _ hstate => hstate)) fun answer => ?_
    cases answer with
    | error reason => exact reconcileFail_started hp operator _
    | ok metadata =>
      dsimp only
      split
      · exact reconcileFail_started hp operator _
      · next hmatches =>
          split
          · exact reconcileFail_started hp operator _
          · next hheld =>
              refine .consequence (fun _ hstate => ⟨hstate.1, hstate.2.1.1, hstate.2.2.1⟩)
                (reconcileApplied_safe hp operator hjob hstart ?_ ?_)
                (fun _ _ _ => trivial) fun _ _ => trivial
              · simpa using hheld
              · simpa using hmatches

theorem reconcileStarted_safe :
    (among locale p jobs thread).Obeys (fun state => Owns thread queueID state ∧
        Reconciling locale p thread record queueID start state)
      (p.reconcileStarted operator record queueID) := by
  refine .bind (.observe (inspect_owned (.reconciling hp)
    fun _ hstate => hstate.2)) fun answer => ?_
  cases answer with
  | error reason => exact reconcileFail_started hp operator _
  | ok metadata =>
    dsimp only
    split
    · exact reconcileFail_started hp operator _
    · next hmatches =>
        split
        · next hheld =>
            refine .consequence (fun _ hstate => ⟨hstate.1, hstate.2.1.1, hstate.2.2.1⟩)
              (reconcileApplied_safe hp operator hjob hstart hheld ?_)
              (fun _ _ _ => trivial) fun _ _ => trivial
            simpa using hmatches
        · exact .consequence (fun _ hstate => ⟨hstate.1, hstate.2.1⟩)
            (reconcileHold_safe hp operator hjob hstart) (fun _ _ _ => trivial) fun _ _ => trivial

omit hstart

theorem reconcileLocked_safe :
    (among locale p jobs thread).Obeys (Owns thread queueID)
      (p.reconcileLocked operator queueID) := by
  refine .bind (loadRecord_stored hp .owns queueID) fun record => ?_
  have halready : (among locale p jobs thread).Attempts (fun state => Owns thread queueID state ∧
        Stored locale p queueID record state)
      (p.alreadyApplied record queueID) (fun _ state => Owns thread queueID state ∧
        Stored locale p queueID record state) fun _ => True := by
    unfold Platform.alreadyApplied
    split
    · refine .bind (.observe (inspect_owned (.stored hp)
        fun _ _ => List.nil_sublist _)) fun answer => ?_
      cases answer with
      | error reason => exact .pure fun _ hstate => ⟨hstate.1, hstate.2.1⟩
      | ok metadata => exact .pure fun _ hstate => ⟨hstate.1, hstate.2.1⟩
    · exact .pure fun _ hstate => hstate
  refine .bind halready fun already => ?_
  cases already with
  | true => exact .pure fun _ _ => trivial
  | false =>
    refine .of_bind fun _ _ => ?_
    refine .bind (mover_owned operator _ (.stored hp) (Set.empty_subset _)) fun mover => ?_
    refine .bind (.attempt_any (start_reconciling hp)) fun _ => ?_
    rintro state ⟨howns, hreconciling, hmover⟩
    exact reconcileStarted_safe hp operator hjob hmover state ⟨howns, hreconciling⟩

theorem reconcile_safe :
    (among locale p jobs thread).Obeys (fun _ => True) (p.reconcile operator queueID) :=
  .of_bind fun _ _ => withQueueLock_safe (reconcileLocked_safe hp operator hjob)

end Reconcile

section Jobs

variable {fact : Instant → Prop}

theorem attempt_free {α : Type} {program : Program interface (Except Error α)}
    (hprogram : (among locale p jobs thread).Triple fact program fun _ _ => True) :
    (among locale p jobs thread).Obeys fact (Task.attempt program) :=
  .attempt_any hprogram

variable {actor : ActorRef} {correlationID : Text} {decision : Decision}
  {request : EnforcementRequest}

theorem requireIfHeld_safe :
    (among locale p jobs thread).Obeys fact
      (requireIfHeld actor correlationID queueID decision) := by
  unfold requireIfHeld
  split
  · exact .bind (.observe (ask_any fun _ _ => trivial)) fun _ =>
      attempt_free (ask_any fun _ _ => trivial)
  · exact .pure fun _ _ => trivial

theorem recordSubmissionDecision_safe {recipient : Text} :
    (among locale p jobs thread).Obeys fact
      (p.recordSubmissionDecision correlationID recipient decision) := by
  unfold Platform.recordSubmissionDecision
  split
  · exact .pure fun _ _ => trivial
  · refine .of_bind fun _ _ => .bind (.observe (ask_any fun _ _ => trivial)) fun _ => ?_
    exact .bind (attempt_free (ask_any fun _ _ => trivial)) fun _ => .pure fun _ _ => trivial

theorem authoritySources_safe {envelope : Text} :
    (among locale p jobs thread).Obeys fact (p.authoritySources request envelope) := by
  unfold Platform.authoritySources
  split
  · refine .bind (attempt_free (ask_any fun _ _ => trivial)) fun found => ?_
    exact .of_bind fun _ _ => .pure fun _ _ => trivial
  · refine .bind (attempt_free (ask_any fun _ _ => trivial)) fun found => ?_
    exact .of_bind fun _ _ => .pure fun _ _ => trivial

theorem submissionSources_safe :
    (among locale p jobs thread).Obeys fact (p.submissionSources request) :=
  .of_bind fun _ _ => .of_bind fun _ _ => .bind authoritySources_safe fun _ =>
    .of_bind fun _ _ => .pure fun _ _ => trivial

theorem decideTask_safe (hp : p.Lookup) :
    (among locale p jobs thread).Obeys fact (p.decideTask actor correlationID request) := by
  refine .of_bind fun _ _ => ?_
  split
  · refine .bind submissionSources_safe fun sources => ?_
    exact .bind (attempt_free (ask_any fun _ _ => trivial)) fun _ => recordSubmissionDecision_safe
  · refine .of_bind fun _ _ => .bind (.of_bind fun _ _ => reload_any hp _)
      fun record => .of_bind fun _ _ => ?_
    refine .bind (attempt_free (ask_any fun _ _ => trivial)) fun governing => ?_
    exact .bind requireIfHeld_safe fun _ => .pure fun _ _ => trivial

theorem decideRequest_safe (hp : p.Lookup) :
    (among locale p jobs thread).Triple fact
      (p.decideRequest actor correlationID request) fun _ _ => True := by
  refine .bind (decideTask_safe hp) fun result => ?_
  cases result with
  | ok decision => exact .pure fun _ _ => trivial
  | error reason => exact .pure fun _ _ => trivial

theorem requireHold_safe {operator : Operator} :
    (among locale p jobs thread).Obeys fact (operator.requireHold queueID decision) := by
  have hmover : (among locale p jobs thread).Obeys fact (operator.mover queueID) :=
    .bind (.observe (ask_any fun _ _ => trivial)) fun _ => .pure fun _ _ => trivial
  exact .bind hmover fun _ => attempt_free (ask_any fun _ _ => trivial)

/-- Whatever a request asks for, its calls are allowed. -/
theorem Job.safe (hp : p.Lookup) (locale : Locale) (jobs : Thread → Job) (thread : Thread) :
    (among locale p jobs thread).Triple (fun _ => True)
      ((jobs thread).program p) fun _ _ => True := by
  cases hjob : jobs thread with
  | release operator queueID confirmed =>
    exact .bind (release_safe hp operator hjob) fun _ => .pure fun _ _ => trivial
  | reconcile operator queueID =>
    exact .bind (reconcile_safe hp operator hjob) fun _ => .pure fun _ _ => trivial
  | requireHold operator queueID decision =>
    exact .bind requireHold_safe fun _ => .pure fun _ _ => trivial
  | decide actor correlationID request =>
    exact .bind (decideRequest_safe hp) fun _ => .pure fun _ _ => trivial
  | register input =>
    exact .bind (ask_any fun _ _ => trivial) fun _ =>
      .bind (ask_any fun _ _ => trivial) fun _ => .pure fun _ _ => trivial
  | apply request =>
    exact .bind (ask_any fun _ _ => trivial) fun _ =>
      .bind (ask_any fun _ _ => trivial) fun _ => .pure fun _ _ => trivial
  | mutate mutation =>
    exact .bind (ask_any fun _ _ => trivial) fun _ => .pure fun _ _ => trivial

/-- Any number of requests, started from any world. -/
theorem pool_sound (hp : p.Lookup) (locale : Locale) (jobs : Thread → Job) (start : World) :
    (machine locale p).Sound (allowed locale p jobs)
      ⟨⟨start, []⟩, fun thread => some ((jobs thread).program p)⟩ := by
  intro thread program hprogram later _
  cases hprogram
  exact Job.safe hp locale jobs thread later trivial

end Jobs

end GotthMail
