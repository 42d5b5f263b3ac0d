/-
The policy decision for one envelope recipient under the domains that govern
a message.  Missing, invalid or contradictory authority defers; it never falls
back to delivery.
-/
import GotthMail.Domain
import GotthMail.Registry

namespace GotthMail

open Bytes

inductive Scope where
  | unrestricted
  | sameDomainOnly
  | other (raw : Text)
deriving DecidableEq, Repr

inductive Stage where
  | submission
  | transport
  | other (raw : Text)
deriving DecidableEq, Repr

inductive Action where
  | ok
  | reject
  | defer
deriving DecidableEq, Repr

inductive Reason where
  | unrestricted
  | sameDomain
  | recipientForbidden
  | crossDomainConflict
  | policyHold
  | unavailable
  | other (raw : Text)
deriving DecidableEq, Repr

abbrev RevisionMap := Finmap fun _ : Text => Nat

structure GoverningDomain where
  domain : Text
  scope : Scope
  revision : Nat
deriving DecidableEq, Repr

structure Request where
  stage : Stage
  queueID : Text
  recipient : Text
  governing : List GoverningDomain

structure Decision where
  action : Action
  reason : Reason
  revisions : RevisionMap := ∅
deriving DecidableEq

def maxGoverningDomains : Nat := 64

def maxPostfixQueueIDBytes : Nat := 100

def validScope : Scope → Bool
  | .unrestricted => true
  | .sameDomainOnly => true
  | .other _ => false

def queueIDAlphabet : Text := ascii "0123456789BCDFGHJKLMNPQRSTVWXYZbcdfghjklmnpqrstvwxyz"

/-- The documented Postfix long queue ID: its alphabet, with a separator after
ten or more characters and before the last. -/
def validLongQueueID (queueID : Text) : Bool :=
  12 ≤ queueID.length && queueID.length ≤ maxPostfixQueueIDBytes &&
    queueID.all queueIDAlphabet.elem && queueID.zipIdx.any fun (byte, index) =>
      byte == 122 && decide (10 ≤ index ∧ index < queueID.length - 1)

/-- Scope and revision of one domain. -/
structure PolicyState where
  scope : Scope
  revision : Nat
deriving DecidableEq, Repr

/-- The two tables the decision builds from the governing domains. -/
structure Authority where
  authoritative : Finmap fun _ : Text => PolicyState
  restricted : RevisionMap

/-- The decision once the restricted domains are known. -/
def decideRestricted (stage : Stage) (recipient : Text) (restricted : RevisionMap) : Decision :=
  if restricted.keys.card = 0 then { action := .ok, reason := .unrestricted }
  else if 1 < restricted.keys.card then
    if stage = .transport then ⟨.defer, .policyHold, restricted⟩
    else ⟨.reject, .crossDomainConflict, restricted⟩
  else if recipient ∈ restricted.keys then ⟨.ok, .sameDomain, restricted⟩
  else if stage = .transport then ⟨.defer, .policyHold, restricted⟩
  else ⟨.reject, .recipientForbidden, restricted⟩

namespace Platform

variable (p : Platform)

/-- One governing domain; `none` is the early return of a deferral. -/
def admitGoverning (tables : Authority) (governing : GoverningDomain) :
    Option Authority :=
  match p.normalizeDomain governing.domain with
  | .error _ => none
  | .ok domain =>
    if governing.revision = 0 ∨ ¬ validScope governing.scope then none
    else
      let state : PolicyState := ⟨governing.scope, governing.revision⟩
      match tables.authoritative.lookup domain with
      | some prior => if prior ≠ state then none else some tables
      | none => some
          { authoritative := tables.authoritative.insert domain state
            restricted :=
              if governing.scope = .sameDomainOnly then
                tables.restricted.insert domain governing.revision
              else tables.restricted }

def evaluate (request : Request) : Decision :=
  if request.stage ≠ .submission ∧ request.stage ≠ .transport then
    { action := .defer, reason := .unavailable }
  else if request.stage = .transport ∧ ¬ validLongQueueID request.queueID then
    { action := .defer, reason := .unavailable }
  else if request.governing.length = 0 ∨ maxGoverningDomains < request.governing.length then
    { action := .defer, reason := .unavailable }
  else
    match p.recipientDomain request.recipient with
    | .error _ => { action := .defer, reason := .unavailable }
    | .ok recipient =>
      match request.governing.foldlM p.admitGoverning ⟨∅, ∅⟩ with
      | none => { action := .defer, reason := .unavailable }
      | some tables =>
        decideRestricted request.stage recipient tables.restricted

/-- The state that a valid governing entry claims for its domain. -/
def governingClaim (governing : GoverningDomain) : Option (Text × PolicyState) :=
  match p.normalizeDomain governing.domain with
  | .error _ => none
  | .ok domain =>
    if governing.revision = 0 ∨ ¬ validScope governing.scope then none
    else some (domain, ⟨governing.scope, governing.revision⟩)

end Platform

/-- The restricted table lists the same-domain-only part of the other one. -/
def Authority.Coherent (tables : Authority) : Prop :=
  ∀ domain revision, tables.restricted.lookup domain = some revision ↔
    tables.authoritative.lookup domain = some ⟨.sameDomainOnly, revision⟩

variable {p : Platform}

theorem governingClaim_eq_some_iff {governing : GoverningDomain} {domain : Text}
    {state : PolicyState} :
    p.governingClaim governing = some (domain, state) ↔
      p.normalizeDomain governing.domain = .ok domain ∧
        governing.revision ≠ 0 ∧ validScope governing.scope = true ∧
        state = ⟨governing.scope, governing.revision⟩ := by
  unfold Platform.governingClaim
  cases hdomain : p.normalizeDomain governing.domain with
  | error reason => simp
  | ok found =>
    by_cases hinvalid : governing.revision = 0 ∨ ¬ validScope governing.scope
    · simp only [hinvalid, ↓reduceIte]
      simp only [reduceCtorEq, Except.ok.injEq, false_iff]
      rintro ⟨_, hrevision, hscope, _⟩
      exact hinvalid.elim hrevision (· hscope)
    · simp only [hinvalid, ↓reduceIte]
      push Not at hinvalid
      simp only [Option.some.injEq, Prod.mk.injEq, Except.ok.injEq]
      constructor
      · rintro ⟨rfl, rfl⟩
        exact ⟨rfl, hinvalid.1, hinvalid.2, rfl⟩
      · rintro ⟨rfl, _, _, rfl⟩
        exact ⟨rfl, rfl⟩

variable {tables : Authority} {governing : List GoverningDomain} {request : Request}

theorem Authority.Coherent.insert (htables : tables.Coherent) {domain : Text}
    (hfresh : tables.authoritative.lookup domain = none) (scope : Scope) (revision : Nat) :
    Authority.Coherent
      { authoritative := tables.authoritative.insert domain ⟨scope, revision⟩
        restricted :=
          if scope = .sameDomainOnly then
            tables.restricted.insert domain revision
          else tables.restricted } := by
  intro other number
  by_cases hother : other = domain
  · subst hother
    have hrestricted : tables.restricted.lookup other = none := by
      rw [Option.eq_none_iff_forall_ne_some]
      intro found hfound
      rw [htables, hfresh] at hfound
      cases hfound
    split
    · next hscope => simp [Finmap.lookup_insert, hscope]
    · next hscope => simp [hrestricted, hscope]
  · rw [Finmap.lookup_insert_of_ne _ hother]
    split
    · rw [Finmap.lookup_insert_of_ne _ hother, htables]
    · rw [htables]

/-- One loop step records the claim and keeps the tables coherent. -/
theorem admitGoverning_spec (htables : tables.Coherent) (governing : GoverningDomain) :
    (p.admitGoverning tables governing).map Authority.authoritative =
        Registry.record p.governingClaim tables.authoritative governing ∧
      ∀ next ∈ p.admitGoverning tables governing, next.Coherent := by
  unfold Platform.admitGoverning Registry.record Platform.governingClaim
  cases hdomain : p.normalizeDomain governing.domain with
  | error reason => simp
  | ok domain =>
    by_cases hinvalid : governing.revision = 0 ∨ ¬ validScope governing.scope
    · simp only [hinvalid, ↓reduceIte]
      simp
    · simp only [hinvalid, ↓reduceIte]
      cases hlookup : tables.authoritative.lookup domain with
      | some prior =>
        by_cases hprior : prior = ⟨governing.scope, governing.revision⟩
        · simpa [hprior] using htables
        · simp [hprior]
      | none =>
        refine ⟨rfl, ?_⟩
        intro next hnext
        cases hnext
        exact htables.insert hlookup _ _

/-- The whole loop, related to recording the claims. -/
theorem foldlM_admitGoverning_spec (htables : tables.Coherent) (governing : List GoverningDomain) :
    (governing.foldlM p.admitGoverning tables).map Authority.authoritative =
        governing.foldlM (Registry.record p.governingClaim) tables.authoritative ∧
      ∀ next ∈ governing.foldlM p.admitGoverning tables, next.Coherent := by
  induction governing generalizing tables with
  | nil => exact ⟨rfl, fun next hnext => Option.some.inj hnext ▸ htables⟩
  | cons entry rest ih =>
    obtain ⟨hstep, hcoherent⟩ := admitGoverning_spec (p := p) htables entry
    rw [List.foldlM_cons, List.foldlM_cons, ← hstep]
    cases haccept : p.admitGoverning tables entry with
    | none => simp
    | some middle => exact ih (hcoherent middle haccept)

theorem coherent_empty : Authority.Coherent ⟨∅, ∅⟩ := by
  intro domain revision
  simp

/-- The loop succeeds exactly on consistent entries; the restricted table then
holds the same-domain-only claims. -/
theorem foldlM_admitGoverning_eq_some
    (hfold : governing.foldlM p.admitGoverning ⟨∅, ∅⟩ = some tables) :
    Registry.Consistent p.governingClaim governing ∧
      ∀ domain revision, tables.restricted.lookup domain = some revision ↔
        ∃ entry ∈ governing, p.governingClaim entry =
          some (domain, ⟨.sameDomainOnly, revision⟩) := by
  obtain ⟨hrecord, hcoherent⟩ := foldlM_admitGoverning_spec (p := p) coherent_empty governing
  rw [hfold] at hrecord
  obtain ⟨hconsistent, hholds⟩ := Registry.foldlM_eq_some_iff.mp hrecord.symm
  refine ⟨hconsistent, fun domain revision => ?_⟩
  rw [hcoherent tables hfold]
  exact hholds domain _

theorem foldlM_admitGoverning_isSome
    (hconsistent : Registry.Consistent p.governingClaim governing) :
    ∃ tables, governing.foldlM p.admitGoverning ⟨∅, ∅⟩ = some tables := by
  obtain ⟨table, htable⟩ := Registry.foldlM_isSome ∅ hconsistent (by simp)
  obtain ⟨hrecord, _⟩ := foldlM_admitGoverning_spec (p := p) coherent_empty governing
  rw [htable] at hrecord
  obtain ⟨tables, htables, _⟩ := Option.map_eq_some_iff.mp hrecord
  exact ⟨tables, htables⟩

/-- The restricted table depends on the set of governing entries alone. -/
theorem foldlM_admitGoverning_congr {left right : List GoverningDomain}
    (hsame : ∀ entry, entry ∈ left ↔ entry ∈ right) :
    (left.foldlM p.admitGoverning ⟨∅, ∅⟩).map Authority.restricted =
      (right.foldlM p.admitGoverning ⟨∅, ∅⟩).map Authority.restricted := by
  cases hleft : left.foldlM p.admitGoverning ⟨∅, ∅⟩ with
  | none =>
    cases hright : right.foldlM p.admitGoverning ⟨∅, ∅⟩ with
    | none => rfl
    | some tables =>
      have hconsistent := (foldlM_admitGoverning_eq_some hright).1
      obtain ⟨found, hfound⟩ := foldlM_admitGoverning_isSome
        (hconsistent.of_subset fun entry => (hsame entry).mp)
      rw [hleft] at hfound
      cases hfound
  | some tables =>
    obtain ⟨hconsistent, hlookup⟩ := foldlM_admitGoverning_eq_some hleft
    obtain ⟨found, hfound⟩ := foldlM_admitGoverning_isSome
      (hconsistent.of_subset fun entry => (hsame entry).mpr)
    have hother := (foldlM_admitGoverning_eq_some hfound).2
    rw [hfound, Option.map_some, Option.map_some]
    congr 1
    apply Finmap.ext_lookup
    intro domain
    apply Option.ext
    intro revision
    rw [hlookup, hother]
    simp only [hsame]

/-- A reordering or repetition of the governing entries within the limit does
not change the decision. -/
theorem evaluate_congr (hsame : ∀ entry, entry ∈ governing ↔ entry ∈ request.governing)
    (hbound : maxGoverningDomains < governing.length ↔
      maxGoverningDomains < request.governing.length) :
    p.evaluate { request with governing } = p.evaluate request := by
  have hempty : governing.length = 0 ↔ request.governing.length = 0 := by
    rw [List.length_eq_zero_iff, List.length_eq_zero_iff,
      List.eq_nil_iff_forall_not_mem, List.eq_nil_iff_forall_not_mem]
    simp only [hsame]
  have hcongr := foldlM_admitGoverning_congr (p := p) hsame
  unfold Platform.evaluate
  simp only [hempty, hbound]
  cases hleft : governing.foldlM p.admitGoverning ⟨∅, ∅⟩ with
  | none =>
    rw [hleft] at hcongr
    rw [Option.map_eq_none_iff.mp hcongr.symm]
  | some tables =>
    rw [hleft] at hcongr
    obtain ⟨found, hfound, hrestricted⟩ := Option.map_eq_some_iff.mp hcongr.symm
    rw [hfound]
    simp only [hrestricted]

/-- A request whose stage, queue ID, recipient and authority are all in order. -/
structure Request.WellFormed (p : Platform) (request : Request)
    (recipient : Text) : Prop where
  stage : request.stage = .submission ∨ request.stage = .transport
  queueID : request.stage = .transport → validLongQueueID request.queueID = true
  count : 1 ≤ request.governing.length ∧ request.governing.length ≤ 64
  parsed : p.recipientDomain request.recipient = .ok recipient
  valid : ∀ entry ∈ request.governing, (∃ domain, p.normalizeDomain entry.domain = .ok domain) ∧
      entry.revision ≠ 0 ∧ (entry.scope = .unrestricted ∨ entry.scope = .sameDomainOnly)
  agree : ∀ first ∈ request.governing, ∀ second ∈ request.governing,
    ∀ domain, p.normalizeDomain first.domain = .ok domain →
      p.normalizeDomain second.domain = .ok domain →
      first.scope = second.scope ∧ first.revision = second.revision

/-- What a request has to satisfy for its recipient to be permitted. -/
structure Request.Permitted (p : Platform) (request : Request)
    (recipient : Text) : Prop extends request.WellFormed p recipient where
  sameDomain : ∀ entry ∈ request.governing, entry.scope = .sameDomainOnly →
    p.normalizeDomain entry.domain = .ok recipient

theorem validScope_iff {scope : Scope} :
    validScope scope = true ↔ scope = .unrestricted ∨ scope = .sameDomainOnly := by
  cases scope <;> simp [validScope]

theorem consistent_governingClaim_iff :
    Registry.Consistent p.governingClaim governing ↔ (∀ entry ∈ governing,
        (∃ domain, p.normalizeDomain entry.domain = .ok domain) ∧ entry.revision ≠ 0 ∧
          (entry.scope = .unrestricted ∨ entry.scope = .sameDomainOnly)) ∧
        ∀ first ∈ governing, ∀ second ∈ governing,
          ∀ domain, p.normalizeDomain first.domain = .ok domain →
            p.normalizeDomain second.domain = .ok domain →
            first.scope = second.scope ∧ first.revision = second.revision := by
  constructor
  · intro hconsistent
    have hvalid : ∀ entry ∈ governing, entry.revision ≠ 0 ∧ validScope entry.scope = true := by
      intro entry hentry
      obtain ⟨_, _, hclaim⟩ := hconsistent.wellFormed entry hentry
      obtain ⟨_, hrevision, hscope, _⟩ := governingClaim_eq_some_iff.mp hclaim
      exact ⟨hrevision, hscope⟩
    refine ⟨fun entry hentry => ?_, fun first hfirst second hsecond => ?_⟩
    · obtain ⟨domain, state, hclaim⟩ := hconsistent.wellFormed entry hentry
      obtain ⟨hdomain, hrevision, hscope, _⟩ := governingClaim_eq_some_iff.mp hclaim
      exact ⟨⟨domain, hdomain⟩, hrevision, validScope_iff.mp hscope⟩
    · intro domain hleft hright
      have hstate := hconsistent.agree first hfirst second hsecond domain
        ⟨first.scope, first.revision⟩ ⟨second.scope, second.revision⟩
        (governingClaim_eq_some_iff.mpr ⟨hleft, (hvalid first hfirst).1,
          (hvalid first hfirst).2, rfl⟩)
        (governingClaim_eq_some_iff.mpr ⟨hright, (hvalid second hsecond).1,
          (hvalid second hsecond).2, rfl⟩)
      simpa using hstate
  · rintro ⟨hvalid, hagree⟩
    constructor
    · intro entry hentry
      obtain ⟨⟨domain, hdomain⟩, hrevision, hscope⟩ := hvalid entry hentry
      exact ⟨domain, _, governingClaim_eq_some_iff.mpr
        ⟨hdomain, hrevision, validScope_iff.mpr hscope, rfl⟩⟩
    · intro first hfirst second hsecond domain state other hstate hother
      obtain ⟨hleft, _, _, rfl⟩ := governingClaim_eq_some_iff.mp hstate
      obtain ⟨hright, _, _, rfl⟩ := governingClaim_eq_some_iff.mp hother
      obtain ⟨hscope, hrevision⟩ := hagree first hfirst second hsecond domain hleft hright
      rw [hscope, hrevision]

/-- On a well-formed request the restricted domains decide. -/
theorem evaluate_of_wellFormed {recipient : Text} (hrequest : request.WellFormed p recipient) :
    ∃ restricted : RevisionMap,
      p.evaluate request = decideRestricted request.stage recipient restricted ∧
      ∀ domain, domain ∈ restricted.keys ↔ ∃ entry ∈ request.governing,
        entry.scope = .sameDomainOnly ∧ p.normalizeDomain entry.domain = .ok domain := by
  have hconsistent := consistent_governingClaim_iff.mpr ⟨hrequest.valid, hrequest.agree⟩
  obtain ⟨tables, htables⟩ := foldlM_admitGoverning_isSome hconsistent
  have hlookup := (foldlM_admitGoverning_eq_some htables).2
  refine ⟨tables.restricted, ?_, fun domain => ?_⟩
  · have hstage : ¬ (request.stage ≠ .submission ∧ request.stage ≠ .transport) := by
      rintro ⟨hsubmission, htransport⟩
      exact hrequest.stage.elim hsubmission htransport
    have hqueue : ¬ (request.stage = .transport ∧
        ¬ validLongQueueID request.queueID) := fun hboth =>
      hboth.2 (hrequest.queueID hboth.1)
    have hcount : ¬ (request.governing.length = 0 ∨
        maxGoverningDomains < request.governing.length) := by
      have := hrequest.count
      simp only [maxGoverningDomains]
      omega
    simp only [Platform.evaluate, if_neg hstage, if_neg hqueue, if_neg hcount,
      hrequest.parsed, htables]
  · rw [Finmap.mem_keys, Finmap.mem_iff]
    constructor
    · rintro ⟨revision, hrevision⟩
      obtain ⟨entry, hentry, hclaim⟩ := (hlookup domain revision).mp hrevision
      obtain ⟨hdomain, _, _, hstate⟩ := governingClaim_eq_some_iff.mp hclaim
      simp only [PolicyState.mk.injEq] at hstate
      exact ⟨entry, hentry, hstate.1.symm, hdomain⟩
    · rintro ⟨entry, hentry, hscope, hdomain⟩
      refine ⟨entry.revision, (hlookup domain _).mpr ⟨entry, hentry, ?_⟩⟩
      refine governingClaim_eq_some_iff.mpr ⟨hdomain, (hrequest.valid entry hentry).2.1, ?_, ?_⟩
      · rw [hscope]
        rfl
      · rw [hscope]

/-- Every other request is deferred as unavailable. -/
theorem evaluate_of_not_wellFormed (hrequest : ∀ recipient, ¬ request.WellFormed p recipient) :
    p.evaluate request = { action := .defer, reason := .unavailable } := by
  unfold Platform.evaluate
  split
  · rfl
  · next hstage =>
      split
      · rfl
      · next hqueue =>
          split
          · rfl
          · next hcount =>
              split
              · rfl
              · next recipient hparsed =>
                  split
                  · rfl
                  · next tables htables =>
                      obtain ⟨hvalid, hagree⟩ :=
                        consistent_governingClaim_iff.mp (foldlM_admitGoverning_eq_some htables).1
                      simp only [maxGoverningDomains] at hcount
                      exact absurd
                        { stage := by tauto
                          queueID := by
                            intro htransport
                            by_contra hinvalid
                            exact hqueue ⟨htransport, hinvalid⟩
                          count := by omega
                          parsed := hparsed
                          valid := hvalid
                          agree := hagree } (hrequest recipient)

theorem decideRestricted_ok_iff {stage : Stage} {recipient : Text} {restricted : RevisionMap} :
    (decideRestricted stage recipient restricted).action = .ok ↔
      ∀ domain ∈ restricted.keys, domain = recipient := by
  unfold decideRestricted
  split
  · next hzero =>
      rw [Finset.card_eq_zero.mp hzero]
      simp
  · next hzero =>
      split
      · next hseveral =>
          obtain ⟨first, hfirst, second, hsecond, hne⟩ := Finset.one_lt_card.mp hseveral
          have haction : ∀ reason other,
              (if stage = .transport then
                (⟨.defer, reason, restricted⟩ : Decision)
              else ⟨.reject, other, restricted⟩).action ≠ .ok := by
            intro reason other
            split <;> simp
          simp only [haction, false_iff]
          intro hall
          exact hne ((hall first hfirst).trans (hall second hsecond).symm)
      · next hone =>
          obtain ⟨only, honly⟩ := Finset.card_eq_one.mp (show restricted.keys.card = 1 by omega)
          rw [honly]
          simp only [Finset.mem_singleton, forall_eq]
          split
          · next hrecipient => simp [hrecipient]
          · next hrecipient =>
              split <;> simp [Ne.symm hrecipient]

theorem decideRestricted_transport (recipient : Text) (restricted : RevisionMap) :
    (decideRestricted .transport recipient restricted).action = .ok ∨
      decideRestricted .transport recipient restricted = ⟨.defer, .policyHold, restricted⟩ := by
  unfold decideRestricted
  split
  · exact .inl rfl
  · split
    · exact .inr rfl
    · split
      · exact .inl rfl
      · exact .inr rfl

theorem evaluate_ok_iff :
    (p.evaluate request).action = .ok ↔ ∃ recipient, request.Permitted p recipient := by
  constructor
  · intro hok
    by_cases hexists : ∃ recipient, request.WellFormed p recipient
    · obtain ⟨recipient, hrequest⟩ := hexists
      obtain ⟨restricted, hevaluate, hkeys⟩ := evaluate_of_wellFormed hrequest
      rw [hevaluate, decideRestricted_ok_iff] at hok
      refine ⟨recipient, hrequest, fun entry hentry hscope => ?_⟩
      obtain ⟨domain, hdomain⟩ := (hrequest.valid entry hentry).1
      have hmem := (hkeys domain).mpr ⟨entry, hentry, hscope, hdomain⟩
      rw [← hok domain hmem]
      exact hdomain
    · push Not at hexists
      rw [evaluate_of_not_wellFormed hexists] at hok
      cases hok
  · rintro ⟨recipient, hrequest⟩
    obtain ⟨restricted, hevaluate, hkeys⟩ := evaluate_of_wellFormed hrequest.toWellFormed
    rw [hevaluate, decideRestricted_ok_iff]
    intro domain hdomain
    obtain ⟨entry, hentry, hscope, hnormal⟩ := (hkeys domain).mp hdomain
    have hsame := hrequest.sameDomain entry hentry hscope
    rw [hnormal] at hsame
    exact Except.ok.inj hsame

/-- A transport request ends in delivery, in a policy hold or in the deferral
of an unusable request. -/
theorem evaluate_transport (hstage : request.stage = .transport) :
    (p.evaluate request).action = .ok ∨ ((p.evaluate request).action = .defer ∧
        (p.evaluate request).reason = .policyHold) ∨
      p.evaluate request = { action := .defer, reason := .unavailable } := by
  by_cases hexists : ∃ recipient, request.WellFormed p recipient
  · obtain ⟨recipient, hrequest⟩ := hexists
    obtain ⟨restricted, hevaluate, _⟩ := evaluate_of_wellFormed hrequest
    rw [hevaluate, hstage]
    rcases decideRestricted_transport recipient restricted with hok | hhold
    · exact .inl hok
    · rw [hhold]
      exact .inr (.inl ⟨rfl, rfl⟩)
  · push Not at hexists
    exact .inr (.inr (evaluate_of_not_wellFormed hexists))

/-- The decision is exact, a transport request is never rejected, and neither
the order nor the repetition of governing entries matters. -/
theorem evaluate_exact (p : Platform) (request : Request) :
    ((p.evaluate request).action = .ok ↔ ∃ recipient, request.Permitted p recipient) ∧
    (request.stage = .transport → (p.evaluate request).action ≠ .reject) ∧
    (∀ governing : List GoverningDomain, governing.Perm request.governing →
      p.evaluate { request with governing } = p.evaluate request) ∧
    (∀ governing copies : List GoverningDomain, (∀ entry ∈ copies, entry ∈ request.governing) →
      governing.Perm (request.governing ++ copies) → governing.length ≤ 64 →
      p.evaluate { request with governing } = p.evaluate request) := by
  refine ⟨evaluate_ok_iff, fun hstage hreject => ?_, ?_, ?_⟩
  · rcases evaluate_transport (p := p) hstage with hok | ⟨hdefer, _⟩ | hunavailable
    · rw [hok] at hreject
      cases hreject
    · rw [hdefer] at hreject
      cases hreject
    · rw [hunavailable] at hreject
      cases hreject
  · intro governing hperm
    apply evaluate_congr
    · intro entry
      exact hperm.mem_iff
    · rw [hperm.length_eq]
  · intro governing copies hcopies hperm hlength
    apply evaluate_congr
    · intro entry
      rw [hperm.mem_iff, List.mem_append]
      exact ⟨fun hentry => hentry.elim id (hcopies entry), Or.inl⟩
    · have htotal := hperm.length_eq
      rw [List.length_append] at htotal
      simp only [maxGoverningDomains]
      omega

end GotthMail
