/-
A claim as a fence.  While a claim is younger than its lease, nobody else should
touch the approval; and only its own holder should end an execution.  The
statements that end an execution or record an expiry do not look at the claim,
so this rests on time: on executions that end within their lease, and on
expiries that are not decided on a row that was claimed again since it was read.
-/
import GotthMail.ApprovalProtocol

namespace GotthMail

open Bytes Relational Calls

variable {s : Precision} {lease delay : Time} {journal later earlier : List Commit}
  {claim commit : Commit} {p : Platform} {clock : Time → Time → Prop} {jobs : Thread → ApprovalJob}
  {start : ApprovalStore} {row : ApprovalRow}

/-- The end of an execution. -/
def Commit.finishes (id : Text) (commit : Commit) : Bool :=
  match commit.transaction with
  | .complete finished _ => decide (finished = id)
  | .retry finished _ => decide (finished = id)
  | _ => false

def Commit.changes (id : Text) (commit : Commit) : Bool :=
  decide (commit.transaction.target = some id)

/-- When the execution of a claim started, as the row has it. -/
def Commit.started (s : Precision) (commit : Commit) : Time :=
  match commit.transaction with
  | .claim _ confirmation _ => s.round confirmation.now
  | _ => 0

/-- The number of attempts that a commit left behind. -/
def Commit.attempts (id : Text) (commit : Commit) : Nat :=
  (commit.store.approvals.find? id).elim 0 fun row => row.progress.attempts

/-- The claim that holds the approval: the last change, if it is a claim. -/
def holder (id : Text) (journal : List Commit) : Option Commit :=
  (journal.find? (Commit.changes id)).filter (Commit.claims id)

/-- A claim that has not been ended and is younger than its lease at some time. -/
structure Underway (lease : Time) (id : Text) (time : Time) (earlier : List Commit)
    (claim : Commit) : Prop where
  committed : claim ∈ earlier
  claims : claim.claims id = true
  fresh : time - claim.time < lease
  open_ : ∀ finish ∈ earlier, finish.thread = claim.thread → finish.finishes id = false

/-- Such a claim of somebody else. -/
structure Foreign (lease : Time) (id : Text) (commit : Commit) (earlier : List Commit)
    (claim : Commit) : Prop extends Underway lease id commit.time earlier claim where
  other : claim.thread ≠ commit.thread

structure Respects (lease : Time) (id : Text) (commit : Commit)
    (earlier : List Commit) : Prop where
  own : commit.finishes id = true →
    ∃ claim, holder id earlier = some claim ∧ claim.thread = commit.thread
  others : commit.changes id = true → ∀ claim, ¬ Foreign lease id commit earlier claim

/-- Every commit respects the claims before it. -/
def Fenced (lease : Time) (id : Text) : List Commit → Prop
  | [] => True
  | commit :: earlier =>
    Respects lease id commit earlier ∧ Fenced lease id earlier

/-- How often the approval had been claimed in the row that an expiry was decided on. -/
def Commit.expires (id : Text) (commit : Commit) : Option Nat :=
  match commit.transaction with
  | .deny attempt _ true => if attempt.id = id then some attempt.progress.attempts else none
  | _ => none

/-- A commit that is not late.  A claim is committed soon after the time that it records, an
execution ends within what is left of the lease, and an expiry was decided on a row that
has not been claimed since. -/
structure OnTime (s : Precision) (lease delay : Time) (id : Text) (commit : Commit)
    (earlier : List Commit) : Prop where
  prompt : commit.claims id = true → commit.time ≤ commit.started s + delay
  ending : commit.finishes id = true → ∀ claim ∈ earlier, claim.claims id = true →
    claim.thread = commit.thread → commit.time - claim.time < lease - delay
  expiry : ∀ attempts ∈ commit.expires id, ∀ claim ∈ earlier, claim.claims id = true →
    claim.attempts id ≤ attempts

instance OnTime.decidable (s : Precision) (lease delay : Time) (id : Text) (commit : Commit)
    (earlier : List Commit) : Decidable (OnTime s lease delay id commit earlier) :=
  decidable_of_iff (_ ∧ _ ∧ _) ⟨fun honTime => ⟨honTime.1, honTime.2.1, honTime.2.2⟩,
    fun honTime => ⟨honTime.prompt, honTime.ending, honTime.expiry⟩⟩

def Timely (s : Precision) (lease delay : Time) (id : Text) : List Commit → Prop
  | [] => True
  | commit :: earlier =>
    OnTime s lease delay id commit earlier ∧ Timely s lease delay id earlier

instance Timely.decidable (s : Precision) (lease delay : Time) (id : Text) :
    ∀ journal, Decidable (Timely s lease delay id journal)
  | [] => inferInstanceAs (Decidable True)
  | commit :: earlier =>
    have := Timely.decidable s lease delay id earlier
    inferInstanceAs (Decidable (OnTime s lease delay id commit earlier ∧
      Timely s lease delay id earlier))

section Lists

variable {id : Text}

theorem Commit.changes_of_claims (hclaims : commit.claims id = true) : commit.changes id = true :=
  decide_eq_true (Commit.claims_target hclaims)

/-- The journal up to the claim that holds the approval. -/
theorem holder_eq_some_iff :
    holder id journal = some claim ↔ ∃ later earlier,
      journal = later ++ claim :: earlier ∧ claim.claims id = true ∧
        ∀ commit ∈ later, commit.changes id = false := by
  unfold holder
  rw [Option.filter_eq_some_iff, List.find?_eq_some_iff_append]
  constructor
  · rintro ⟨⟨_, later, earlier, hjournal, hlater⟩, hclaims⟩
    refine ⟨later, earlier, hjournal, hclaims, ?_⟩
    intro commit hcommit
    simpa using hlater commit hcommit
  · rintro ⟨later, earlier, hjournal, hclaims, hlater⟩
    refine ⟨⟨Commit.changes_of_claims hclaims, later, earlier, hjournal, ?_⟩, hclaims⟩
    intro commit hcommit
    simpa using hlater commit hcommit

theorem Fenced.respects (hfenced : Fenced lease id journal)
    {later earlier : List Commit} (hjournal : journal = later ++ commit :: earlier) :
    Respects lease id commit earlier := by
  induction later generalizing journal with
  | nil =>
    subst hjournal
    exact hfenced.1
  | cons head rest ih =>
    subst hjournal
    exact ih hfenced.2 rfl

theorem Timely.prompt (htimely : Timely s lease delay id journal) (hclaim : claim ∈ journal)
    (hclaims : claim.claims id = true) : claim.time ≤ claim.started s + delay := by
  induction journal with
  | nil => cases hclaim
  | cons commit earlier ih =>
    rcases List.mem_cons.mp hclaim with rfl | hclaim
    · exact htimely.1.prompt hclaims
    · exact ih htimely.2 hclaim

theorem Commit.not_finishes (hclaims : commit.claims id = true) : commit.finishes id = false := by
  unfold Commit.claims at hclaims
  unfold Commit.finishes
  generalize commit.transaction = transaction at hclaims ⊢
  cases transaction with
  | claim read confirmation lease => rfl
  | _ => cases hclaims

end Lists

section Rows

variable {older : List Commit} {newest : Commit} {id : Text} {read : ApprovalRow}

theorem RowStep.eq_of_other {transaction : ApprovalTransaction} {before after : Option ApprovalRow}
    (hstep : RowStep s id transaction before after)
    (hother : transaction.target ≠ some id) : after = before := by
  cases hstep with
  | other _ => rfl
  | create hcreate hid =>
    rw [hcreate, ← hid] at hother
    exact absurd rfl hother
  | move hmove => exact absurd hmove.target hother

/-- Commits that do not change the approval leave its row. -/
theorem Lawful.rowAt_append (hlawful : Lawful p clock jobs start s (later ++ earlier))
    (hlater : ∀ commit ∈ later, commit.changes id = false) :
    rowAt start (later ++ earlier) id = rowAt start earlier id := by
  induction later with
  | nil => rfl
  | cons head rest ih =>
    have hhead := hlater head List.mem_cons_self
    rw [← ih (hlawful.suffix (List.suffix_cons _ _)) fun commit hcommit =>
      hlater commit (List.mem_cons_of_mem _ hcommit)]
    exact (hlawful.rowStep id).eq_of_other (of_decide_eq_false hhead)

theorem Lawful.claimed (hlawful : Lawful p clock jobs start s (claim :: earlier))
    (hclaims : claim.claims id = true) :
    ∃ before row, rowAt start earlier id = some before ∧
      rowAt start (claim :: earlier) id = some row ∧
      row.progress = before.progress.claimed (claim.started s) := by
  have hstep := hlawful.rowStep id
  have htarget := Commit.claims_target hclaims
  unfold Commit.claims at hclaims
  unfold Commit.started
  generalize claim.transaction = transaction at hclaims hstep htarget
  cases transaction with
  | claim read confirmation lease =>
    generalize rowAt start earlier id = before at hstep
    generalize rowAt start (claim :: earlier) id = after at hstep
    cases hstep with
    | other hother => exact absurd htarget hother
    | create hcreate _ => cases hcreate
    | move hmove =>
      cases hmove with
      | claim _ => exact ⟨_, _, rfl, rfl, rfl⟩
  | _ => cases hclaims

theorem ApprovalMove.attempts_le {transaction : ApprovalTransaction}
    {before after : ApprovalProgress} (hmove : ApprovalMove s transaction id before after) :
    before.attempts ≤ after.attempts := by
  cases hmove with
  | claim _ => exact Nat.le_succ _
  | activate _ | complete _ | retry _ | invalidate _ | expire _ =>
    exact Nat.le_refl _

theorem Lawful.attempts_le (hlawful : Lawful p clock jobs start s journal)
    (holder : older <:+ journal) (hread : rowAt start older id = some read)
    (hrow : rowAt start journal id = some row) :
    read.progress.attempts ≤ row.progress.attempts := by
  induction hlawful generalizing row with
  | nil =>
    rw [List.suffix_nil.mp holder, hrow] at hread
    cases hread
    exact Nat.le_refl _
  | @cons middle newest hmiddle happlied hpermits htime ih =>
    have hwhole := Lawful.cons hmiddle happlied hpermits htime
    rcases List.suffix_cons_iff.mp holder with rfl | holder
    · cases hread.symm.trans hrow
      exact Nat.le_refl _
    · obtain ⟨between, hbetween, _⟩ := hmiddle.binding holder hread
      have hstep := hwhole.rowStep id
      rw [hbetween, hrow] at hstep
      have hle := ih holder hbetween
      cases hstep with
      | other _ => exact hle
      | move hmove => exact hle.trans hmove.attempts_le

theorem suffix_append_cons_cases {later earlier older : List Commit}
    {middle : Commit} (holder : older <:+ later ++ middle :: earlier) :
    older <:+ earlier ∨ ∃ kept, kept <:+ later ∧ older = kept ++ middle :: earlier := by
  induction later with
  | nil =>
    rcases List.suffix_cons_iff.mp holder with rfl | holder
    · exact .inr ⟨[], List.suffix_refl _, rfl⟩
    · exact .inl holder
  | cons head rest ih =>
    rcases List.suffix_cons_iff.mp holder with rfl | holder
    · exact .inr ⟨head :: rest, List.suffix_refl _, rfl⟩
    · rcases ih holder with hearly | ⟨kept, hkept, rfl⟩
      · exact .inl hearly
      · exact .inr ⟨kept, hkept.trans (List.suffix_cons _ _), rfl⟩

/-- A row that already had the attempts of the last change is the current
row. -/
theorem Lawful.read_current (hlawful : Lawful p clock jobs start s (later ++ claim :: earlier))
    (hclaims : claim.claims id = true) (hlater : ∀ commit ∈ later, commit.changes id = false)
    (holder : older <:+ later ++ claim :: earlier) (hread : rowAt start older id = some read)
    (hattempts : claim.attempts id ≤ read.progress.attempts) :
    rowAt start (claim :: earlier) id = some read := by
  have hclaim := hlawful.suffix (List.suffix_append later _)
  rcases suffix_append_cons_cases holder with hearly | ⟨kept, hkept, rfl⟩
  · -- The claim itself added an attempt, so an older row has fewer.
    obtain ⟨before, after, hbefore, hafter, hclaimed⟩ := hclaim.claimed hclaims
    have hle := (hclaim.suffix (List.suffix_cons _ _)).attempts_le hearly hread hbefore
    have hmore : claim.attempts id = before.progress.attempts + 1 := by
      unfold Commit.attempts
      rw [show claim.store.approvals.find? id = some after from hafter]
      exact congrArg ApprovalProgress.attempts hclaimed
    omega
  · rw [← hread, (hlawful.suffix holder).rowAt_append]
    intro commit hcommit
    exact hlater commit (hkept.subset hcommit)

end Rows

/-- Every thread executes an approval, with the same lease. -/
def Executors (jobs : Thread → ApprovalJob) (lease : Time) : Prop :=
  ∀ thread, ∃ executor id bindingToken actor,
    jobs thread = .execute executor id bindingToken actor ∧ executor.leaseTime = lease

section Executions

variable {id : Text}

/-- A confirmation was read from the clock before it was presented. -/
theorem Executors.presents (hjobs : Executors jobs lease) {thread : Thread}
    {time given : Time} {confirmation : ApprovalConfirmation}
    (hpresents : Presents trueClock jobs thread time confirmation given) :
    given = lease ∧ confirmation.now ≤ time := by
  obtain ⟨executor, executed, bindingToken, actor, hjob, hlease⟩ := hjobs thread
  cases hpresents with
  | claim hclaim =>
    rw [hjob] at hclaim
    cases hclaim
  | execute hexecute hgiven hread hclock =>
    rw [hjob] at hexecute
    cases hexecute
    exact ⟨hgiven.trans hlease, (show confirmation.now = _ from hclock) ▸ hread⟩

variable {started : Time}

/-- After its claim an execution only ends. -/
theorem Lawful.finishes (hlawful : Lawful p clock jobs start s (commit :: journal))
    (hclaim : claim ∈ journal) (hthread : claim.thread = commit.thread)
    (hchanges : commit.changes id = true) : commit.finishes id = true := by
  have htarget := of_decide_eq_true hchanges
  unfold Commit.finishes
  cases hlawful with
  | cons _ _ hpermits _ =>
  generalize commit.transaction = transaction at hpermits htarget
  cases hpermits with
  | create hsilent | activate hsilent | invalidate hsilent | claim hsilent
  | deny hsilent | complete hsilent | retry hsilent | writeAudit hsilent =>
    exact absurd hthread (hsilent claim hclaim)
  | completeExecution _ | retryExecution _ =>
    exact decide_eq_true (Option.some.inj htarget)

/-- Before it ends an execution a thread has committed nothing but its claim. -/
theorem Executors.claimed (hjobs : Executors jobs lease)
    (hlawful : Lawful p clock jobs start s (commit :: journal))
    (hfinishes : commit.finishes id = true) :
    ∃ claim ∈ journal, claim.claims id = true ∧ claim.thread = commit.thread ∧
      ∀ finish ∈ journal, finish.thread = claim.thread → finish.finishes id = false := by
  obtain ⟨executor, executed, bindingToken, actor, hjob, _⟩ := hjobs commit.thread
  have hexecutes : Executes jobs commit.thread id journal := by
    unfold Commit.finishes at hfinishes
    cases hlawful with
    | cons _ _ hpermits _ =>
    generalize commit.transaction = transaction at hpermits hfinishes
    cases hpermits with
    | completeExecution hexecutes | retryExecution hexecutes =>
      exact of_decide_eq_true hfinishes ▸ hexecutes
    | complete _ hends | retry _ hends =>
      rw [hjob] at hends
      cases hends
    | create | activate | invalidate | claim | deny | writeAudit => cases hfinishes
  obtain ⟨_, read, confirmation, given, hread, ⟨claim, hclaim, hthread, htransaction⟩, honly⟩ :=
    hexecutes
  have hclaims {other : Commit} (hother : other.transaction = .claim read confirmation given) :
      other.claims id = true := by
    rw [Commit.claims, hother]
    exact decide_eq_true hread
  refine ⟨claim, hclaim, hclaims htransaction, hthread, fun finish hfinish hsame => ?_⟩
  exact Commit.not_finishes (hclaims (honly finish hfinish (hsame.trans hthread)))

/-- A claim that has not been ended holds the approval as long as it is fresh. -/
theorem Underway.holds (hlawful : Lawful p clock jobs start s (commit :: journal))
    (hfenced : Fenced lease id journal)
    (hunderway : Underway lease id commit.time journal claim) : holder id journal = some claim := by
  obtain ⟨later, earlier, hjournal⟩ := List.append_of_mem hunderway.committed
  refine holder_eq_some_iff.mpr ⟨later, earlier, hjournal, hunderway.claims, ?_⟩
  intro changed hchanged
  by_contra hchanges
  rw [Bool.not_eq_false] at hchanges
  obtain ⟨first, second, rfl⟩ := List.append_of_mem hchanged
  have hsplit : journal = first ++ changed :: (second ++ claim :: earlier) := by
    rw [hjournal, List.append_assoc, List.cons_append]
  have hmember : claim ∈ second ++ claim :: earlier := by simp
  have hsub : second ++ claim :: earlier ⊆ journal := by
    rw [hsplit]
    exact List.Subset.trans (List.subset_cons_self _ _) (List.subset_append_right _ _)
  have hin : changed ∈ journal := by
    rw [hsplit]
    simp
  cases hlawful with
  | cons hearlier happlied hpermits htime =>
  have hlaw : Lawful p clock jobs start s (changed :: (second ++ claim :: earlier)) :=
    hearlier.suffix ⟨first, hsplit.symm⟩
  by_cases hthread : claim.thread = changed.thread
  · have hfinishes := hlaw.finishes hmember hthread hchanges
    rw [hunderway.open_ changed hin hthread.symm] at hfinishes
    cases hfinishes
  · refine (hfenced.respects hsplit).others hchanges claim
      ⟨⟨hmember, hunderway.claims, ?_, ?_⟩, hthread⟩
    · exact lt_of_le_of_lt (Int.sub_le_sub_right (htime changed hin) _) hunderway.fresh
    · exact fun finish hfinish => hunderway.open_ finish (hsub hfinish)

/-- A time that comes before a rounded one comes before it. -/
theorem Precision.lapsed {now : Time} (hround : s.round started = started)
    (hbefore : started < s.round (now - lease)) : lease ≤ now - started := by
  by_contra hshort
  have hearly : now - lease ≤ started := by
    have hshort : now - started < lease := not_le.mp hshort
    exact (Int.sub_lt_of_sub_lt hshort).le
  exact absurd hbefore (not_lt.mpr (hround ▸ s.monotone hearly))

theorem Commit.started_round (claim : Commit) (hclaims : claim.claims id = true) :
    s.round (claim.started s) = claim.started s := by
  unfold Commit.claims at hclaims
  unfold Commit.started
  generalize claim.transaction = transaction at hclaims ⊢
  cases transaction with
  | claim read confirmation lease => exact s.idempotent _
  | _ => cases hclaims

theorem started_of_claimable {before : Time} {progress : ApprovalProgress}
    (hclaimable : (progress.claimed started).claimable before = true) : started < before := by
  simpa [ApprovalProgress.claimable, ApprovalProgress.claimed] using
    (Bool.and_eq_true_iff.mp hclaimable).2

/-- An expiry is only decided once no lease is running. -/
theorem lapsed_of_terminal {confirmation : ApprovalConfirmation} {message : String}
    {before : ApprovalProgress}
    (hterminal : p.claimRefusal confirmation lease row = some (message, true))
    (hclaimed : row.progress = before.claimed started) : lease ≤ confirmation.now - started := by
  unfold Platform.claimRefusal at hterminal
  split at hterminal
  · cases hterminal
  split at hterminal
  · cases hterminal
  next hidle =>
  rw [hclaimed] at hidle
  simpa [Platform.inProgress, ApprovalProgress.claimed] using hidle

/-- An execution that ends in time ends its own claim. -/
theorem OnTime.own (hjobs : Executors jobs lease)
    (hlawful : Lawful p clock jobs start s (commit :: journal))
    (honTime : OnTime s lease delay id commit journal)
    (hfenced : Fenced (lease - delay) id journal) (hfinishes : commit.finishes id = true) :
    ∃ claim, holder id journal = some claim ∧ claim.thread = commit.thread := by
  obtain ⟨claim, hclaim, hclaims, hthread, hopen⟩ := hjobs.claimed hlawful hfinishes
  have hfresh := honTime.ending hfinishes claim hclaim hclaims hthread
  exact ⟨claim, Underway.holds hlawful hfenced ⟨hclaim, hclaims, hfresh, hopen⟩, hthread⟩

/-- Nobody changes an approval that a fresh claim of somebody else holds, unless
it comes too late. -/
theorem OnTime.others (hjobs : Executors jobs lease)
    (hlawful : Lawful p trueClock jobs start s (commit :: journal))
    (honTime : OnTime s lease delay id commit journal)
    (htimely : Timely s lease delay id journal) (hfenced : Fenced (lease - delay) id journal)
    (hchanges : commit.changes id = true) : ¬ Foreign (lease - delay) id commit journal claim := by
  intro hforeign
  have hprompt := htimely.prompt hforeign.committed hforeign.claims
  have hholder := hforeign.toUnderway.holds hlawful hfenced
  have hwhole := hlawful
  obtain ⟨later, earlier, rfl, hclaims, hlater⟩ := holder_eq_some_iff.mp hholder
  have hstep := hlawful.rowStep id
  have htarget := of_decide_eq_true hchanges
  cases hlawful with
  | cons hearlier happlied hpermits htime =>
  obtain ⟨before, row, _, hrow, hclaimed⟩ :=
    (hearlier.suffix (List.suffix_append later _)).claimed hclaims
  rw [hearlier.rowAt_append hlater, hrow] at hstep
  have hfresh : commit.time - claim.started s < lease := by
    linarith only [hprompt, hforeign.fresh]
  generalize htransaction : commit.transaction = transaction at hstep htarget hpermits
  generalize rowAt start (commit :: (later ++ claim :: earlier)) id = after at hstep
  cases hstep with
  | other hother => exact absurd htarget hother
  | move hmove =>
    rw [hclaimed] at hmove
    cases hmove with
    | claim hclaimable =>
      cases hpermits with
      | claim _ _ _ _ hpresents =>
        obtain ⟨rfl, hnow⟩ := hjobs.presents hpresents
        have hbefore := started_of_claimable hclaimable
        have hlapsed := s.lapsed (claim.started_round hclaims) hbefore
        exact absurd hfresh (not_lt.mpr (hlapsed.trans (Int.sub_le_sub_right hnow _)))
    | complete _ | retry _ =>
      have hfinishes : commit.finishes id = true := by
        simp [Commit.finishes, htransaction]
      obtain ⟨own, hown, hthread⟩ := honTime.own hjobs hwhole hfenced hfinishes
      rw [hholder] at hown
      cases hown
      exact hforeign.other hthread
    | invalidate hstate => rcases hstate with hstate | hstate <;> cases hstate
    | activate hstate => cases hstate
    | expire _ =>
      cases hpermits with
      | @deny read confirmation given _ _ _ hseen _ hterminal hpresents =>
        obtain ⟨rfl, hnow⟩ := hjobs.presents hpresents
        obtain ⟨older, holder, hread⟩ := hseen
        have hexpires : read.progress.attempts ∈ commit.expires read.id := by
          rw [Commit.expires, htransaction]
          exact if_pos rfl
        have hcurrent := hearlier.read_current hclaims hlater holder hread
          (honTime.expiry _ hexpires claim hforeign.committed hforeign.claims)
        cases hrow.symm.trans hcurrent
        have hlapsed := lapsed_of_terminal (hterminal rfl) hclaimed
        exact absurd hfresh (not_lt.mpr (hlapsed.trans (Int.sub_le_sub_right hnow _)))

end Executions

/-- Everybody executes the flush of a queue. -/
def confirmJobs : Thread → ApprovalJob :=
  fun _ => .execute ⟨330000000000, true, false⟩ (ascii "approval-1")
    (ascii "AAAAAAAAAAAAAAAAAAAAAA") ⟨ascii "telegram", ascii "42"⟩

def promptedApprovals : ApprovalWorld :=
  { (emptyApprovals.scheduled exactPrecision asciiPlatform flushJobs
      [(0, 4), (1, 2)]).2.world with journal := [] }

variable {id : Text}

end GotthMail
