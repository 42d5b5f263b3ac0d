/-
Retention of audit events.  A preview counts the events before a cutoff; its
application computes the cutoff again from its own clock, writes an event of its
own and deletes what is before that cutoff.
-/
import GotthMail.Audit
import GotthMail.Snapshots

namespace GotthMail

open Bytes Framing Sha256 Relational Effect

abbrev AuditLog := Table AuditRow AuditRow.id

structure RetentionPreview where
  id : Text
  policy : Text
  deleteCount : Nat
  hash : Text
deriving DecidableEq

/-- The audit writer, the calendar and the text of an instant in seconds. -/
structure RetentionSite where
  audit : AuditSite
  addDays : Time → Int → Time
  formatSeconds : Time → Text

/-- The statements that the database may refuse. -/
inductive RetentionStep where
  | count
  | begin
  | insert
  | delete
deriving DecidableEq

def olderThan : Text := ascii "older-than-"

def retentionDays (policy : Text) : Option Int := do
  let rest := policy.drop olderThan.length
  if olderThan.isPrefixOf policy && rest.getLast? == some 100 then
    let days ← atoi rest.dropLast
    if 1 ≤ days then return days else none
  else none

def unsupportedPolicy : Text := ascii "unsupported retention policy"

namespace RetentionSite

variable (site : RetentionSite)

def retentionCutoff (policy : Text) (now : Time) : Except Text Time :=
  match retentionDays policy with
  | none => .error unsupportedPolicy
  | some days => .ok (site.addDays now (-days))

/-- The events before a cutoff. -/
def before (cutoff : Time) (row : AuditRow) : Bool := decide (row.timestamp < cutoff)

def previewRetention (refuses : RetentionStep → Bool) (policy : Text) (now : Time)
    (log : AuditLog) : Except Text RetentionPreview := do
  let cutoff ← site.retentionCutoff policy now
  if refuses .count then .error (ascii "sql")
  let count := (log.rows.filter (before cutoff)).length
  let hash := sumHex (policy ++ site.formatSeconds cutoff ++ decimal count)
  return ⟨ascii "ret_" ++ hash.take 8, policy, count, hash⟩

/-- The event that an application writes. -/
def retentionEntry (actor : ActorRef) (preview : RetentionPreview) : AuditEntry where
  id := []
  time := 0
  actor := actor
  source := none
  action := ascii "audit.retention.apply"
  resource := ⟨ascii "audit_retention", preview.id⟩
  before := .null
  after := .null
  correlationID := []
  result := ascii "success"
  errorCode := []

def retentionRow (actor : ActorRef) (preview : RetentionPreview) : AuditRow :=
  site.audit.writeRetention (retentionEntry actor preview)

/-- The statements of an application. -/
def deleteBefore (refuses : RetentionStep → Bool) (row : AuditRow)
    (cutoff : Time) : Effect AuditLog Text Unit := do
  Effect.guard (!refuses .begin && !refuses .insert) (ascii "sql")
  let log ← ask fun log => log
  let inserted ← need (log.insert row) (ascii "sql")
  Effect.guard (!refuses .delete) (ascii "sql")
  alter fun _ => inserted.keep fun row => !before cutoff row

def applyRetention (refuses : RetentionStep → Bool) (ending : CommitEnd) (actor : ActorRef)
    (preview : RetentionPreview) (confirm : Text) (now : Time) :
    Effect AuditLog Text Unit := do
  Effect.guard (confirm == preview.id) (ascii "retention confirmation mismatch")
  let cutoff ← Effect.of (site.retentionCutoff preview.policy now)
  (deleteBefore refuses (site.retentionRow actor preview) cutoff).transact ending (ascii "sql")

variable {site} {refuses : RetentionStep → Bool} {ending : CommitEnd} {policy confirm : Text}
  {now : Time} {log : AuditLog} {preview : RetentionPreview} {actor : ActorRef}

variable (site policy now) in
def cutoffAt : Time := site.addDays now (-(retentionDays policy).getD 0)

theorem retentionCutoff_ok {cutoff : Time}
    (hcutoff : site.retentionCutoff policy now = .ok cutoff) :
    cutoff = site.cutoffAt policy now := by
  rw [retentionCutoff] at hcutoff
  rw [cutoffAt]
  split at hcutoff
  · cases hcutoff
  · next days hdays =>
      cases hcutoff
      rw [hdays]
      rfl

/-- A preview counts what is before its cutoff. -/
theorem previewRetention_ok
    (hpreview : site.previewRetention refuses policy now log = .ok preview) :
    preview.policy = policy ∧ preview.deleteCount =
      (log.rows.filter (before (site.cutoffAt policy now))).length := by
  rw [previewRetention] at hpreview
  cases hcutoff : site.retentionCutoff policy now with
  | error reason =>
    rw [hcutoff] at hpreview
    cases hpreview
  | ok cutoff =>
    rw [hcutoff] at hpreview
    cases hcount : refuses .count with
    | true =>
      simp only [hcount] at hpreview
      cases hpreview
    | false =>
      simp only [hcount] at hpreview
      cases hpreview
      rw [retentionCutoff_ok hcutoff]
      exact ⟨rfl, rfl⟩

theorem deleteBefore_triple (row : AuditRow) (cutoff : Time) :
    (deleteBefore refuses row cutoff).Triple (· = log) (fun _ after => after.rows =
        (log.rows ++ [row]).filter fun row => !before cutoff row)
      fun _ => True := by
  unfold deleteBefore
  refine Triple.guard_bind (fun _ _ => trivial) fun _ => Triple.ask_known ?_
  refine Triple.need_bind (fun _ _ => trivial) fun inserted hinserted => ?_
  refine Triple.guard_bind (fun _ _ => trivial) fun _ => Triple.alter ?_
  rintro _ rfl
  rw [← (Table.insert_eq_some_iff.mp hinserted).2]
  rfl

/-- An application deletes what is before its own cutoff, or nothing. -/
theorem applyRetention_triple {holds : AuditLog → Prop} (hholds : ∀ after : AuditLog,
      after.rows = (log.rows ++ [site.retentionRow actor preview]).filter (fun row =>
        !before (site.cutoffAt preview.policy now) row) → holds after) :
    (site.applyRetention refuses ending actor preview confirm now).Triple (· = log)
      (fun _ => holds) fun after => after = log ∨ ending = .lost ∧ holds after := by
  unfold applyRetention
  refine Triple.guard_bind (fun _ hlog => .inl hlog) fun _ => ?_
  refine Triple.of_bind (fun _ hlog => .inl hlog) fun cutoff hcutoff => ?_
  rw [retentionCutoff_ok hcutoff]
  refine Triple.transact ((deleteBefore_triple _ _).consequence (fun _ hlog => hlog)
    (fun _ => hholds) fun _ hstate => hstate) (fun _ hlog => .inl hlog) ?_
  exact fun hlost _ _ hafter => .inr ⟨hlost, hafter⟩

theorem applyRetention_ok {after : AuditLog}
    (hresult : site.applyRetention refuses ending actor preview confirm now log = (.ok (), after)) :
    after.rows = (log.rows ++ [site.retentionRow actor preview]).filter fun row =>
      !before (site.cutoffAt preview.policy now) row :=
  (applyRetention_triple fun _ hafter => hafter).returned rfl hresult

end RetentionSite

/-- The events that are gone are those that the preview has counted, and the
application's own event is there. -/
structure RetentionExact (site : RetentionSite) (actor : ActorRef)
    (preview : RetentionPreview) (counted : List AuditRow) (log after : AuditLog) :
    Prop where
  deleted : (log.rows.filter fun row => row ∉ after.rows) = counted
  count : preview.deleteCount = counted.length
  noted : site.retentionRow actor preview ∈ after.rows

/-- No event lies between the two cutoffs, and none that is new lies before the
second one. -/
structure RetentionSettled (previewed : AuditLog) (written : List AuditRow)
    (first second clock : Time) : Prop where
  between : ∀ row ∈ previewed.rows, row.timestamp < first ↔ row.timestamp < second
  written : ∀ row ∈ written, second ≤ row.timestamp
  own : second ≤ clock

section Exactness

variable {site : RetentionSite} {actor : ActorRef} {preview : RetentionPreview}
  {previewed log after : AuditLog} {written : List AuditRow} {first second : Time}

open RetentionSite

/-- An event of the log is gone exactly when it is before the cutoff. -/
theorem gone_iff {event row : AuditRow}
    (hafter : after.rows = (log.rows ++ [event]).filter fun row => !before second row)
    (hrow : row ∈ log.rows) : row ∉ after.rows ↔ row.timestamp < second := by
  rw [hafter, List.mem_filter, not_and]
  constructor
  · intro hgone
    have hbefore := hgone (List.mem_append_left _ hrow)
    simpa [before] using hbefore
  · intro hlt _
    simpa [before] using hlt

theorem retentionExact_iff
    (hcount : preview.deleteCount = (previewed.rows.filter (before first)).length)
    (hlog : log.rows = previewed.rows ++ written)
    (hafter : after.rows = (log.rows ++ [site.retentionRow actor preview]).filter
      fun row => !before second row) :
    RetentionExact site actor preview (previewed.rows.filter (before first)) log after ↔
      RetentionSettled previewed written first second site.audit.now := by
  have hgone : (log.rows.filter fun row => row ∉ after.rows) = log.rows.filter (before second) := by
    apply List.filter_congr
    intro row hrow
    simp only [gone_iff hafter hrow, before]
  have hnoted : site.retentionRow actor preview ∈ after.rows ↔ second ≤ site.audit.now := by
    have hclock : (site.retentionRow actor preview).timestamp = site.audit.now := rfl
    rw [hafter, List.mem_filter]
    simp [before, hclock]
  constructor
  · rintro ⟨hdeleted, -, hown⟩
    rw [hgone, hlog, List.filter_append] at hdeleted
    have hfresh : written.filter (before second) = [] := by
      -- A new event that is gone would be one that the preview has counted.
      rw [List.filter_eq_nil_iff]
      intro row hrow hbefore
      have hcounted : row ∈ previewed.rows.filter (before first) := by
        rw [← hdeleted]
        exact List.mem_append_right _ (List.mem_filter.mpr ⟨hrow, hbefore⟩)
      have hunique := log.unique
      rw [hlog, List.map_append, List.nodup_append] at hunique
      exact hunique.2.2 row.id (List.mem_map_of_mem (List.mem_filter.mp hcounted).1)
        row.id (List.mem_map_of_mem hrow) rfl
    rw [hfresh, List.append_nil] at hdeleted
    refine ⟨fun row hrow => ?_, fun row hrow => ?_, hnoted.mp hown⟩
    · have hmem : row ∈ previewed.rows.filter (before second) ↔
          row ∈ previewed.rows.filter (before first) := by rw [hdeleted]
      simpa [List.mem_filter, hrow, before] using hmem.symm
    · simpa [before] using List.filter_eq_nil_iff.mp hfresh row hrow
  · rintro ⟨hbetween, hwritten, hown⟩
    refine ⟨?_, hcount, hnoted.mpr hown⟩
    have hfresh : written.filter (before second) = [] := by
      rw [List.filter_eq_nil_iff]
      intro row hrow
      simpa [before] using hwritten row hrow
    rw [hgone, hlog, List.filter_append, hfresh, List.append_nil]
    apply List.filter_congr
    intro row hrow
    simp only [before, hbetween row hrow]

end Exactness

/-- A confirmed retention deletes what its preview has counted exactly when the
log is settled with respect to the two cutoffs.  One that fails does nothing, unless its
commit took effect and only the answer was lost. -/
theorem retention_exact_iff (site : RetentionSite)
    (refuses refusesLater : RetentionStep → Bool) (ending : CommitEnd) (actor : ActorRef)
    (policy : Text) (previewedAt appliedAt : Time) (preview : RetentionPreview)
    (previewed log : AuditLog) (written : List AuditRow)
    (hpreview : site.previewRetention refuses policy previewedAt previewed = .ok preview)
    (hwritten : log.rows = previewed.rows ++ written) :
    let judged := fun after =>
      RetentionExact site actor preview (previewed.rows.filter
          (RetentionSite.before (site.cutoffAt policy previewedAt))) log after ↔
        RetentionSettled previewed written (site.cutoffAt policy previewedAt)
          (site.cutoffAt policy appliedAt) site.audit.now
    (site.applyRetention refusesLater ending actor preview preview.id appliedAt).Triple (· = log)
      (fun _ => judged) fun after => after = log ∨ ending = .lost ∧ judged after := by
  intro judged
  obtain ⟨hpolicy, hcount⟩ := RetentionSite.previewRetention_ok hpreview
  apply RetentionSite.applyRetention_triple
  intro after hafter
  rw [hpolicy] at hafter
  exact retentionExact_iff hcount hwritten hafter

/-- Instants in days, and a clock that shows one of them. -/
def plainRetention (clock : Time) : RetentionSite :=
  ⟨{ plainAudit with now := clock }, fun now days => now + days, fun _ => []⟩

/-- An event of a given day, under the name of that day. -/
def loggedOn (day : Nat) : AuditRow :=
  plainAudit.writeSQL { plainEntry with id := decimal day, time := day }

def dayLog (days : List Nat) (hdays : ((days.map loggedOn).map AuditRow.id).Nodup) : AuditLog :=
  ⟨days.map loggedOn, hdays⟩

def dayPreview (now : Time) (log : AuditLog) : Except Text RetentionPreview :=
  (plainRetention now).previewRetention (fun _ => false) (ascii "older-than-1d") now log

def dayApplied (now : Time) (preview : RetentionPreview) : Effect AuditLog Text Unit :=
  (plainRetention now).applyRetention (fun _ => false) .done ⟨[], []⟩ preview preview.id now

def countedPreview (count : Nat) : RetentionPreview :=
  let hash := sumHex (ascii "older-than-1d" ++ decimal count)
  ⟨ascii "ret_" ++ hash.take 8, ascii "older-than-1d", count, hash⟩

theorem dayApplied_ok (now : Time) {preview : RetentionPreview}
    (hpolicy : preview.policy = ascii "older-than-1d") :
    ∀ log ∈ [dayLog [5] (by decide), dayLog [3, 8, 10, 11] (by decide)],
      ∃ after, dayApplied now preview log = (.ok (), after) := by
  intro log hlog
  unfold dayApplied RetentionSite.applyRetention
  rw [beq_self_eq_true, hpolicy]
  rcases List.mem_pair.mp hlog with rfl | rfl <;> exact ⟨_, rfl⟩

/-- The events of three days, a preview on the tenth, and another event before it is applied
on the eleventh. -/
theorem retention_exact_next_day :
    ∃ after, dayApplied 11 (countedPreview 2) (dayLog [3, 8, 10, 11] (by decide)) =
        (.ok (), after) ∧
      RetentionExact (plainRetention 11) ⟨[], []⟩ (countedPreview 2) [loggedOn 3, loggedOn 8]
        (dayLog [3, 8, 10, 11] (by decide)) after := by
  have hpreview : dayPreview 10 (dayLog [3, 8, 10] (by decide)) = .ok (countedPreview 2) := rfl
  have hpolicy : (countedPreview 2).policy = ascii "older-than-1d" := rfl
  generalize countedPreview 2 = preview at hpreview hpolicy ⊢
  have happlied := retention_exact_iff (plainRetention 11) (fun _ => false) (fun _ => false)
    .done ⟨[], []⟩ (ascii "older-than-1d") 10 11 preview (dayLog [3, 8, 10] (by decide))
    (dayLog [3, 8, 10, 11] (by decide)) [loggedOn 11] hpreview rfl
  have hsettled : RetentionSettled (dayLog [3, 8, 10] (by decide)) [loggedOn 11] 9 10 11 :=
    ⟨by decide, by decide, by decide⟩
  obtain ⟨after, hresult⟩ := dayApplied_ok 11 hpolicy _ (List.mem_cons_of_mem _ List.mem_cons_self)
  exact ⟨after, hresult, (happlied.returned rfl hresult).mpr hsettled⟩

/-- A preview that counts no event, and an application two days later that
deletes one. -/
theorem retention_deletes_uncounted :
    dayPreview 5 (dayLog [5] (by decide)) = .ok (countedPreview 0) ∧
      (countedPreview 0).deleteCount = 0 ∧
      ∃ after, dayApplied 7 (countedPreview 0) (dayLog [5] (by decide)) = (.ok (), after) ∧
        loggedOn 5 ∈ (dayLog [5] (by decide)).rows ∧ loggedOn 5 ∉ after.rows := by
  refine ⟨rfl, rfl, ?_⟩
  have hpolicy : (countedPreview 0).policy = ascii "older-than-1d" := rfl
  generalize countedPreview 0 = preview at hpolicy ⊢
  obtain ⟨after, hresult⟩ := dayApplied_ok 7 hpolicy _ List.mem_cons_self
  have hafter := RetentionSite.applyRetention_ok hresult
  rw [hpolicy] at hafter
  have hgone := (gone_iff hafter (List.mem_singleton_self (loggedOn 5))).mpr (by decide)
  exact ⟨after, hresult, List.mem_singleton_self _, hgone⟩

end GotthMail
