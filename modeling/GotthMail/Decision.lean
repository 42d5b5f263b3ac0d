/-
What an OK at transport means.  The database may change between any two
queries of a decision, and nothing is assumed about what it holds; the trace
of a decision keeps the world in which each of its calls was answered.
-/
import GotthMail.Enforcement

namespace GotthMail

open Bytes Relational Calls

/-- One call of a service and the world that answered it. -/
structure Served where
  world : World
  call : Call
  answer : call.Answer

/-- Calls are answered by arbitrary worlds, one after the other. -/
def serving (locale : Locale) (p : Platform) : Setting interface (List Served) where
  performs trace call answer after := ∃ thread world next,
    performs locale p thread world call answer next ∧ after = trace ++ [⟨world, call, answer⟩]
  rely _ _ := False
  allowed _ _ := True

/-- A fact about a trace that later calls do not undo. -/
def Lasting (fact : List Served → Prop) : Prop :=
  ∀ trace served, fact trace → fact (trace ++ [served])

/-- The call was answered in this world. -/
def Asked (world : World) (call : Call) (trace : List Served) : Prop :=
  ∃ answer, (⟨world, call, answer⟩ : Served) ∈ trace

/-- A record that was loaded, each query of it from a world of its own. -/
def Loaded (locale : Locale) (p : Platform) (queueID : Text)
    (record : QueueRecord) (trace : List Served) : Prop :=
  ∃ first second third : World, Asked first (.readMessage queueID) trace ∧
      Asked second (.readRecipients queueID) trace ∧ Asked third (.readSources queueID) trace ∧
      p.loadQueueRecord queueID (first.db.messages.find? queueID)
        (second.db.queueRecipients locale queueID)
        (third.db.queueSources locale queueID) = .ok record

/-- The grounds of an OK at transport: the stored record, the recipient among
its recipients, and the domains that its sources have in one world. -/
def Grounds (locale : Locale) (p : Platform) (queueID recipient : Text)
    (trace : List Served) : Prop :=
  ∃ record canonical domain world governing, Loaded locale p queueID record trace ∧
      p.normalizeQueueRecipient recipient = .ok (canonical, domain) ∧
      canonical ∈ record.recipients ∧ Asked world (.resolve record.sources) trace ∧
      List.Forall₂ (p.Governs world.db) record.sources governing ∧
      ∀ entry ∈ governing, entry.scope = .sameDomainOnly →
        p.recipientDomain canonical = .ok entry.domain ∧ (p.Lookup → entry.domain = domain)

variable {locale : Locale} {p : Platform} {fact : List Served → Prop}

theorem lasting_const (fact : Prop) : Lasting fun _ => fact := fun _ _ hfact => hfact

theorem lasting_asked {world : World} {call : Call} : Lasting (Asked world call) :=
  fun _ _ ⟨answer, hanswer⟩ => ⟨answer, List.mem_append_left _ hanswer⟩

theorem Lasting.and {other : List Served → Prop} (hfact : Lasting fact)
    (hother : Lasting other) : Lasting fun trace => fact trace ∧ other trace :=
  fun trace served hboth => ⟨hfact trace served hboth.1, hother trace served hboth.2⟩

theorem Lasting.exists {ι : Sort*} {facts : ι → List Served → Prop}
    (hfacts : ∀ index, Lasting (facts index)) : Lasting fun trace => ∃ index, facts index trace :=
  fun trace served ⟨index, hfact⟩ => ⟨index, hfacts index trace served hfact⟩

variable {queueID recipient : Text} {record : QueueRecord}

theorem lasting_loaded : Lasting (Loaded locale p queueID record) :=
  .exists fun _ => .exists fun _ => .exists fun _ =>
    lasting_asked.and (lasting_asked.and (lasting_asked.and (lasting_const _)))

/-- The call was answered like this in some world. -/
def Observed (locale : Locale) (p : Platform) (call : Call)
    (answer : call.Answer) (trace : List Served) : Prop :=
  ∃ world, Asked world call trace ∧ ∃ thread next, performs locale p thread world call answer next

theorem lasting_observed {call : Call} {answer : call.Answer} :
    Lasting (Observed locale p call answer) :=
  .exists fun _ => lasting_asked.and (lasting_const _)

theorem ask_served (hfact : Lasting fact) (call : Call) :
    (serving locale p).Triple fact (ask call) fun answer trace =>
      fact trace ∧ Observed locale p call answer trace := by
  refine Setting.Triple.perform (fun _ _ => trivial) ?_ fun _ _ _ _ hrely => hrely.elim
  rintro trace answer _ htrace ⟨thread, world, next, hperforms, rfl⟩
  exact ⟨hfact trace _ htrace, world, ⟨answer, by simp⟩, thread, next, hperforms⟩

theorem served_any {α : Type} {task : Service α} :
    (serving locale p).Obeys fact task := by
  intro trace _
  generalize task.run = program
  clear * -
  induction program generalizing trace with
  | done result => cases result <;> trivial
  | call action next ih => exact ⟨trivial, fun answer _ _ _ _ => ih answer _⟩

theorem loadRecord_served (hfact : Lasting fact) (queueID : Text) :
    (serving locale p).Attempts fact (p.loadRecord queueID)
      (fun record trace => fact trace ∧ Loaded locale p queueID record trace) fun _ => True := by
  refine .bind (.attempt_any (ask_served hfact _)) fun message => ?_
  refine .bind .of_any fun row => .bind .of_any fun _ => ?_
  refine .bind (.attempt_any (ask_served (((hfact.and lasting_observed).and
    (lasting_const _)).and (lasting_const _)) _)) fun recipientRows => ?_
  refine .bind .of_any fun _ => ?_
  refine .bind (.attempt_any (ask_served (((((hfact.and lasting_observed).and
    (lasting_const _)).and (lasting_const _)).and lasting_observed).and
    (lasting_const _)) _)) fun sourceRows => ?_
  refine .of ?_ fun _ _ => trivial
  rintro record trace hrecord ⟨⟨⟨⟨⟨⟨htrace, first, hfirst, _, _, hmessages⟩, _⟩,
    _⟩, second, hsecond, _, _, hrows⟩, _⟩, third, hthird, _, _, hsources⟩
  simp only [performs] at hmessages hrows hsources
  cases hmessages.ok
  cases hrows.ok
  cases hsources.ok
  exact ⟨htrace, first, second, third, hfirst, hsecond, hthird, hrecord⟩

theorem loadQueue_served (hfact : Lasting fact) (queueID : Text) :
    (serving locale p).Attempts fact (p.loadQueue queueID)
      (fun record trace => fact trace ∧ Loaded locale p queueID record trace) fun _ => True :=
  .bind .of_any fun _ => .consequence (fun _ hstate => hstate.1)
    (loadRecord_served hfact queueID) (fun _ _ hloaded => hloaded) fun _ _ => trivial

theorem mem_of_sortedStringContains {values : List Text} {target : Text}
    (hfound : sortedStringContains values target = true) : target ∈ values := by
  rw [sortedStringContains, beq_iff_eq] at hfound
  exact List.mem_of_getElem? hfound

theorem knownRecipient_eq_some {canonical : Text}
    (hknown : p.knownRecipient record recipient = some canonical) :
    ∃ domain, p.normalizeQueueRecipient recipient = .ok (canonical, domain) ∧
      canonical ∈ record.recipients := by
  rw [Platform.knownRecipient] at hknown
  split at hknown
  · next found domain hnormal =>
      split at hknown
      · next hcontains =>
          cases hknown
          exact ⟨domain, hnormal, mem_of_sortedStringContains hcontains⟩
      · cases hknown
  · cases hknown

/-- Entries of canonical domains that permit a recipient name its domain. -/
theorem restricted_of_evaluate {db : Database} {sources : List QueueSource}
    {governing : List GoverningDomain} (hgoverning : List.Forall₂ (p.Governs db) sources governing)
    (hok : (p.evaluate ⟨.transport, queueID, recipient, governing⟩).action = .ok)
    {entry : GoverningDomain} (hentry : entry ∈ governing)
    (hscope : entry.scope = .sameDomainOnly) : p.recipientDomain recipient = .ok entry.domain := by
  obtain ⟨domain, hpermitted⟩ := evaluate_ok_iff.mp hok
  obtain ⟨source, _, hgoverns⟩ := mem_of_forall₂ hgoverning hentry
  have hnormal := hpermitted.sameDomain entry hentry hscope
  rw [hgoverns.canonical] at hnormal
  cases hnormal
  exact hpermitted.parsed

theorem Grounds.of_evaluate {canonical domain : Text} {governing : List GoverningDomain}
    {world : World} {trace : List Served} (hloaded : Loaded locale p queueID record trace)
    (hnormal : p.normalizeQueueRecipient recipient = .ok (canonical, domain))
    (hmem : canonical ∈ record.recipients) (hasked : Asked world (.resolve record.sources) trace)
    (hresolved : p.resolvePolicySources world.db record.sources = .ok governing) (hok : (p.evaluate
      ⟨.transport, record.queueID, canonical, governing⟩).action = .ok) :
    Grounds locale p queueID recipient trace := by
  obtain ⟨_, _, hgoverning⟩ := resolvePolicySources_ok_iff.mp hresolved
  refine ⟨record, canonical, domain, world, governing, hloaded, hnormal, hmem,
    hasked, hgoverning, fun entry hentry hscope => ?_⟩
  have hdomain := restricted_of_evaluate hgoverning hok hentry hscope
  refine ⟨hdomain, fun hp => ?_⟩
  obtain ⟨_, _, henvelope⟩ := Platform.recipientDomain_ok_iff.mp hdomain
  have hcanonical := Platform.normalizeQueueRecipient_recipientDomain
    (hp.normalizeQueueRecipient_of_accepted hnormal henvelope.normalizeQueueRecipient)
  rw [hdomain] at hcanonical
  cases hcanonical
  rfl

theorem requireIfHeld_served {actor : ActorRef} {correlationID : Text}
    {decision : Decision} (hok : decision.action = .ok) :
    (serving locale p).Attempts fact
      (requireIfHeld actor correlationID queueID decision) (fun _ => fact) fun _ => True := by
  rw [requireIfHeld, if_neg (by simp [hok])]
  exact .pure fun _ htrace => htrace

/-- An OK at transport has its grounds in the trace. -/
theorem decideTransport_served (actor : ActorRef) (correlationID : Text)
    (request : EnforcementRequest) :
    (serving locale p).Attempts (fun _ => True) (p.decideTransport actor correlationID request)
      (fun decision trace => decision.action = .ok →
        Grounds locale p request.queueID request.recipient trace)
      fun _ => True := by
  refine .bind .of_any fun _ => ?_
  refine .bind (loadQueue_served (lasting_const _) _) fun record => ?_
  refine .bind .of_any fun canonical => ?_
  refine .bind (.attempt_any (ask_served
    (((lasting_const _).and lasting_loaded).and (lasting_const _)) _)) fun governing => ?_
  by_cases hok : (p.evaluate ⟨.transport, record.queueID, canonical, governing⟩).action = .ok
  · refine .bind (requireIfHeld_served hok) fun _ => .pure ?_
    rintro trace ⟨⟨⟨_, hloaded⟩, hknown⟩, world, hasked, _, _, hperforms⟩ _
    simp only [performs] at hperforms
    obtain ⟨domain, hnormal, hmem⟩ := knownRecipient_eq_some (require_ok_iff.mp hknown)
    exact .of_evaluate hloaded hnormal hmem hasked hperforms.ok hok
  · exact .bind served_any fun _ => .pure fun _ _ hfound => absurd hfound hok

/-- Whatever the database held, a decision that permits has its grounds. -/
theorem decideRequest_served (actor : ActorRef) (correlationID : Text)
    {request : EnforcementRequest} (hstage : request.stage = .transport) :
    (serving locale p).Triple (fun _ => True) (p.decideRequest actor correlationID request)
      fun decided trace => decided.1.action = .ok →
        Grounds locale p request.queueID request.recipient trace := by
  have htask : (serving locale p).Attempts (fun _ => True)
      (p.decideTask actor correlationID request) (fun decision trace => decision.action = .ok →
        Grounds locale p request.queueID request.recipient trace)
      fun _ => True := by
    refine .bind .of_any fun _ => ?_
    rw [if_neg (by simp [hstage])]
    exact .consequence (fun _ _ => trivial) (decideTransport_served actor correlationID request)
      (fun _ _ hdecision => hdecision) fun _ _ => trivial
  refine .bind htask fun result => ?_
  cases result with
  | ok decision => exact .pure fun _ hdecision => hdecision
  | error reason => exact .pure fun _ _ hok => by cases hok

end GotthMail
