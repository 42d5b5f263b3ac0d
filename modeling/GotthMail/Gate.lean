/-
The delivery gate on the Postfix side.  It talks to the control plane over
HTTP, and nothing is assumed about the answers it gets.  Mail is handed to the
relay after one inspection, one registration and one permitting decision for
every recipient.
-/
import GotthMail.Decision

namespace GotthMail

open Bytes Calls

inductive ResponseDecision where
  | ok
  | notFound
  | reject
  | defer
  | error
  | other (raw : Text)
deriving DecidableEq

structure Response where
  decision : ResponseDecision
  reason : Text
  policyRevisions : RevisionMap := ∅

structure QueueDelivery where
  originalRecipient : Text
  recipient : Text

structure QueueAdmissionRequest where
  metadata : QueueMetadata
  authenticatedMailbox : Text
  systemSenderID : Text
  deliveries : List QueueDelivery

structure DeliveryRequest where
  queueID : Text
  authenticatedMailbox : Text
  systemSenderID : Text
  deliveries : List QueueDelivery

def Reason.text : Reason → Text
  | .unrestricted => ascii "outbound_scope_unrestricted"
  | .sameDomain => ascii "same_domain"
  | .recipientForbidden => ascii "recipient_domain_forbidden"
  | .crossDomainConflict => ascii "cross_domain_policy_conflict"
  | .policyHold => ascii "recipient_domain_policy_hold"
  | .unavailable => ascii "outbound_policy_unavailable"
  | .other raw => raw

def policyReasons : List Reason :=
  [.unrestricted, .sameDomain, .recipientForbidden, .crossDomainConflict, .policyHold, .unavailable]

/-- The answer of the daemon to a decision. -/
def outboundDecisionResponse (decision : Decision) : Response where
  decision := match decision.action with
    | .ok => .ok
    | .reject => .reject
    | .defer => .defer
  reason := decision.reason.text
  policyRevisions := decision.revisions

inductive GateCall where
  | inspect (queueID : Text)
  | register (request : QueueAdmissionRequest)
  | decide (queueID recipient : Text)
  | reconcile (queueID : Text)
  | readMessage (limit : Nat)
  | submit (sender : Text) (recipients : List Text) (message : Text)

@[reducible] def GateCall.Answer : GateCall → Type
  | .inspect _ => Except Error QueueMetadata
  | .register _ => Except Error Response
  | .decide _ _ => Except Error Response
  | .reconcile _ => Except Error Response
  | .readMessage _ => Except Error Text
  | .submit _ _ _ => Except Error Unit

@[reducible] def gateInterface : Signature := ⟨GateCall, GateCall.Answer⟩

abbrev Delivery (α : Type) := Task gateInterface Error α

namespace GateCall

def request (call : GateCall) : Program gateInterface call.Answer :=
  Program.perform (S := gateInterface) call

end GateCall

namespace HTTPController

/-- A privileged route accepts two reasons. -/
def accepted (reasons : List Text) (response : Response) : Bool :=
  decide (response.decision = .ok ∧ response.reason ∈ reasons)

def register (request : QueueAdmissionRequest) : Delivery Unit := do
  let response ← Task.attempt (GateCall.register request).request
  Task.of (check (accepted [ascii "outbound_queue_registered",
      ascii "outbound_queue_already_registered"] response)
    "GOTTH Mail rejected queue registration")

def readDecision (response : Response) : Except Error Decision := do
  let action ← require (match response.decision with
      | .ok => some Action.ok
      | .reject => some .reject
      | .defer => some .defer
      | _ => none) "GOTTH Mail returned invalid policy action"
  let reason ← require (policyReasons.find? fun reason => reason.text = response.reason)
    "GOTTH Mail returned invalid policy reason"
  return ⟨action, reason, response.policyRevisions⟩

def decide (queueID recipient : Text) : Delivery Decision := do
  let response ← Task.attempt (GateCall.decide queueID recipient).request
  Task.of (readDecision response)

def reconcile (queueID : Text) : Delivery Unit := do
  let response ← Task.attempt (GateCall.reconcile queueID).request
  Task.of (check (accepted [ascii "outbound_queue_hold_applied",
      ascii "outbound_queue_hold_already_applied"] response)
    "GOTTH Mail did not reconcile queue hold")

end HTTPController

namespace Gate

def maxMessageBytes : Nat := 64 * 2 ^ 20

def inspect (queueID : Text) : Delivery QueueMetadata := do
  let answer ← Task.observe (GateCall.inspect queueID).request
  Task.of (require (answer.toOption.filter fun metadata => !metadata.held)
    "Postfix queue metadata is unavailable")

def clearRecipient (queueID recipient : Text) : Delivery Unit := do
  let decision ← HTTPController.decide queueID recipient
  if decision.action = .defer ∧ decision.reason = .policyHold then
    HTTPController.reconcile queueID
    Task.of (throw (.text "outbound queue placed on policy hold"))
  else
    Task.of (check (decision.action == .ok) "outbound policy deferred final handoff")

def clearRecipients (queueID : Text) : List Text → Delivery Unit
  | [] => pure ()
  | recipient :: rest => do
      clearRecipient queueID recipient
      clearRecipients queueID rest

def readBody : Delivery Text := do
  let answer ← Task.observe (GateCall.readMessage (maxMessageBytes + 1)).request
  Task.of (require (answer.toOption.filter fun body =>
      Decidable.decide (0 < body.length ∧ body.length ≤ maxMessageBytes))
    "invalid or oversized Postfix message")

def deliver (request : DeliveryRequest) : Delivery Unit := do
  Task.of (check (!request.deliveries.isEmpty) "Postfix delivery gate is unavailable")
  let metadata ← inspect request.queueID
  HTTPController.register ⟨metadata, request.authenticatedMailbox,
    request.systemSenderID, request.deliveries⟩
  clearRecipients metadata.queueID metadata.recipients
  let body ← readBody
  Task.attempt (GateCall.submit metadata.envelopeSender metadata.recipients body).request

end Gate

structure GateEvent where
  call : GateCall
  answer : call.Answer

/-- Any call may be answered in any way. -/
def recording (history : List GateEvent) (call : GateCall)
    (answer : call.Answer) (after : List GateEvent) : Prop :=
  after = history ++ [⟨call, answer⟩]

/-- The control plane was asked about a recipient, and its answer permits. -/
def Permits (queueID recipient : Text) (event : GateEvent) : Prop :=
  ∃ response decision, event = ⟨.decide queueID recipient, .ok response⟩ ∧
    HTTPController.readDecision response = .ok decision ∧ decision.action = .ok

/-- Everything that a handoff needs to have happened, and nothing else. -/
structure Cleared (request : DeliveryRequest) (metadata : QueueMetadata)
    (sender : Text) (recipients : List Text) (message : Text)
    (history : List GateEvent) : Prop where
  events : ∃ response decisions, history = ⟨.inspect request.queueID, .ok metadata⟩ ::
      ⟨.register ⟨metadata, request.authenticatedMailbox,
        request.systemSenderID, request.deliveries⟩, .ok response⟩ ::
      (decisions ++ [⟨.readMessage (Gate.maxMessageBytes + 1), .ok message⟩]) ∧
    HTTPController.accepted [ascii "outbound_queue_registered",
      ascii "outbound_queue_already_registered"] response = true ∧
    List.Forall₂ (Permits metadata.queueID) metadata.recipients decisions
  held : metadata.held = false
  sender : sender = metadata.envelopeSender
  recipients : recipients = metadata.recipients
  message : 0 < message.length ∧ message.length ≤ Gate.maxMessageBytes

/-- The gate may hand over only what is cleared. -/
def handover (request : DeliveryRequest) : Setting gateInterface (List GateEvent) where
  performs := recording
  rely _ _ := False
  allowed history call := match call with
    | .submit sender recipients message => ∃ metadata,
        Cleared request metadata sender recipients message history
    | _ => True

variable {request : DeliveryRequest} {history : List GateEvent}

theorem request_recorded {call : GateCall} {past : List GateEvent → Prop}
    (hallowed : ∀ history, past history → (handover request).allowed history call) :
    (handover request).Triple past call.request fun answer history =>
      ∃ before, past before ∧ history = before ++ [⟨call, answer⟩] := by
  refine Setting.Triple.perform hallowed ?_ fun _ _ _ _ hrely => hrely.elim
  intro before answer after hpast hrecord
  exact ⟨before, hpast, hrecord⟩

theorem inspect_recorded (queueID : Text) :
    (handover request).Attempts (· = []) (Gate.inspect queueID)
      (fun metadata history => metadata.held = false ∧ history = [⟨.inspect queueID, .ok metadata⟩])
      fun _ => True := by
  refine .bind (.observe (request_recorded fun _ _ => trivial)) fun answer => ?_
  refine .of ?_ fun _ _ => trivial
  rintro metadata _ hrequired ⟨_, rfl, rfl⟩
  have hfilter := Option.filter_eq_some_iff.mp (require_ok_iff.mp hrequired)
  cases answer with
  | error reason => cases hfilter.1
  | ok found =>
    cases hfilter.1
    exact ⟨by simpa using hfilter.2, rfl⟩

theorem register_recorded (past : List GateEvent) (admission : QueueAdmissionRequest) :
    (handover request).Attempts (· = past) (HTTPController.register admission)
      (fun _ history => ∃ response, history = past ++ [⟨.register admission, .ok response⟩] ∧
          HTTPController.accepted [ascii "outbound_queue_registered",
            ascii "outbound_queue_already_registered"] response = true)
      fun _ => True := by
  refine .bind (.attempt_any (request_recorded fun _ _ => trivial)) fun response => ?_
  refine .of ?_ fun _ _ => trivial
  rintro _ _ haccepted ⟨_, rfl, rfl⟩
  exact ⟨response, rfl, check_ok_iff.mp haccepted⟩

theorem decide_recorded (past : List GateEvent) (queueID recipient : Text) :
    (handover request).Attempts (· = past) (HTTPController.decide queueID recipient)
      (fun decision history => ∃ response,
        history = past ++ [⟨.decide queueID recipient, .ok response⟩] ∧
          HTTPController.readDecision response = .ok decision)
      fun _ => True := by
  refine .bind (.attempt_any (request_recorded fun _ _ => trivial)) fun response => ?_
  refine .of ?_ fun _ _ => trivial
  rintro decision _ hdecision ⟨_, rfl, rfl⟩
  exact ⟨response, rfl, hdecision⟩

/-- Going on after one recipient means that its decision permits. -/
theorem clearRecipient_recorded (past : List GateEvent) (queueID recipient : Text) :
    (handover request).Attempts (· = past) (Gate.clearRecipient queueID recipient)
      (fun _ history => ∃ event, history = past ++ [event] ∧ Permits queueID recipient event)
      fun _ => True := by
  refine .bind (decide_recorded past queueID recipient) fun decision => ?_
  split
  · refine .bind (.bind (.attempt_any (request_recorded fun _ _ => trivial))
      fun response => .of (fun _ history _ _ => trivial) fun _ _ => trivial) fun _ => ?_
    exact .of (fun _ _ hthrown => by cases hthrown) fun _ _ => trivial
  · refine .of ?_ fun _ _ => trivial
    rintro _ _ hok ⟨response, rfl, hdecision⟩
    exact ⟨_, rfl, response, decision, rfl, hdecision, by simpa using check_ok_iff.mp hok⟩

theorem clearRecipients_recorded (past : List GateEvent) (queueID : Text) (recipients : List Text) :
    (handover request).Attempts (· = past) (Gate.clearRecipients queueID recipients)
      (fun _ history => ∃ decisions, history = past ++ decisions ∧
        List.Forall₂ (Permits queueID) recipients decisions)
      fun _ => True := by
  induction recipients generalizing past with
  | nil => exact .pure fun _ hpast => ⟨[], by simpa using hpast, .nil⟩
  | cons recipient rest ih =>
    refine .bind (clearRecipient_recorded past queueID recipient) fun _ => ?_
    rintro _ ⟨event, rfl, hevent⟩
    refine Setting.Attempts.consequence (fun _ hpast => hpast)
      (ih (past ++ [event])) ?_ (fun _ hfailed => hfailed) _ rfl
    rintro _ _ ⟨decisions, rfl, hdecisions⟩
    exact ⟨event :: decisions, by simp, .cons hevent hdecisions⟩

theorem readBody_recorded (past : List GateEvent) :
    (handover request).Attempts (· = past) Gate.readBody (fun body history => history = past ++
          [⟨.readMessage (Gate.maxMessageBytes + 1), .ok body⟩] ∧
        0 < body.length ∧ body.length ≤ Gate.maxMessageBytes)
      fun _ => True := by
  refine .bind (.observe (request_recorded fun _ _ => trivial)) fun answer => ?_
  refine .of ?_ fun _ _ => trivial
  rintro body _ hrequired ⟨_, rfl, rfl⟩
  have hfilter := Option.filter_eq_some_iff.mp (require_ok_iff.mp hrequired)
  cases answer with
  | error reason => cases hfilter.1
  | ok found =>
    cases hfilter.1
    exact ⟨rfl, by simpa using hfilter.2⟩

theorem deliver_handover (request : DeliveryRequest) :
    (handover request).Obeys (· = []) (Gate.deliver request) := by
  refine .bind (.of (fun _ _ _ hnil => hnil) fun _ _ => trivial) fun _ => ?_
  refine .bind (inspect_recorded request.queueID) fun metadata => ?_
  rintro _ ⟨hheld, rfl⟩
  refine Setting.Attempts.bind (register_recorded _ _) (fun _ => ?_) _ rfl
  rintro _ ⟨response, rfl, haccepted⟩
  refine Setting.Attempts.bind (clearRecipients_recorded _ _ _) (fun _ => ?_) _ rfl
  rintro _ ⟨decisions, rfl, hdecisions⟩
  refine Setting.Attempts.bind (readBody_recorded _) (fun body => ?_) _ rfl
  rintro _ ⟨rfl, hbody⟩
  refine ⟨⟨metadata, ?_⟩, fun answer _ _ _ _ => ?_⟩
  · exact
      { events := ⟨response, decisions, by simp, haccepted, hdecisions⟩
        held := hheld
        sender := rfl
        recipients := rfl
        message := hbody }
  · cases answer <;> trivial

theorem action_of_readDecision {decided : Decision} {decision : Decision}
    (hdecision : HTTPController.readDecision (outboundDecisionResponse decided) = .ok decision)
    (hok : decision.action = .ok) : decided.action = .ok := by
  simp only [HTTPController.readDecision, bind_ok_iff, require_ok_iff, pure_ok_iff] at hdecision
  obtain ⟨action, haction, _, _, rfl⟩ := hdecision
  cases hok
  cases hdecided : decided.action with
  | ok => rfl
  | reject => simp [outboundDecisionResponse, hdecided] at haction
  | defer => simp [outboundDecisionResponse, hdecided] at haction

def noticeDelivery : DeliveryRequest where
  queueID := ascii "3bQzXk5Wn4z1v"
  authenticatedMailbox := []
  systemSenderID := ascii "postmaster"
  deliveries := [⟨ascii "a@example.test", ascii "a@example.test"⟩]

def noticeMetadata : QueueMetadata where
  queueID := ascii "3bQzXk5Wn4z1v"
  arrivalFingerprint := []
  envelopeSender := ascii "<>"
  recipients := [ascii "a@example.test"]
  held := false

def noticeDecision : Decision := ⟨.ok, .sameDomain, Finmap.singleton (ascii "example.test") 1⟩

/-- The control plane's own run of the decision. -/
def noticeRun : (Decision × Option Error) × List Served :=
  (asciiPlatform.decideRequest policyService (ascii "notice-1")
    { stage := .transport, queueID := ascii "3bQzXk5Wn4z1v",
      recipient := ascii "a@example.test" }).run
    (fun trace call =>
      let answer := (noticeSite.respond byteLocale asciiPlatform 1 0 call).1
      (answer, trace ++ [⟨noticeSite.world, call, answer⟩])) []

def noticeHistory : List GateEvent :=
  [⟨.inspect (ascii "3bQzXk5Wn4z1v"), .ok noticeMetadata⟩,
    ⟨.register ⟨noticeMetadata, [], ascii "postmaster", noticeDelivery.deliveries⟩,
      .ok ⟨.ok, ascii "outbound_queue_registered", ∅⟩⟩,
    ⟨.decide (ascii "3bQzXk5Wn4z1v") (ascii "a@example.test"),
      .ok (outboundDecisionResponse noticeDecision)⟩,
    ⟨.readMessage (Gate.maxMessageBytes + 1), .ok (ascii "notice")⟩]

theorem noticeDelivery_runs :
    Runs recording (Gate.deliver noticeDelivery).run []
      (.call (.submit (ascii "<>") [ascii "a@example.test"] (ascii "notice"))
        .done) noticeHistory := by
  refine @Runs.step gateInterface _ _ _ (.inspect _) _ _ _ _ (.ok noticeMetadata) _ rfl ?_
  refine @Runs.step gateInterface _ _ _ (.register _) _ _ _ _
    (.ok ⟨.ok, ascii "outbound_queue_registered", ∅⟩) _ rfl ?_
  refine @Runs.step gateInterface _ _ _ (.decide _ _) _ _ _ _
    (.ok (outboundDecisionResponse noticeDecision)) _ rfl ?_
  refine @Runs.step gateInterface _ _ _ (.readMessage _) _ _ _ _ (.ok (ascii "notice")) _ rfl ?_
  exact .stop

theorem noticeRun_runs :
    Runs (serving byteLocale asciiPlatform).performs
      (asciiPlatform.decideRequest policyService (ascii "notice-1")
        { stage := .transport, queueID := ascii "3bQzXk5Wn4z1v",
          recipient := ascii "a@example.test" })
      [] (.done noticeRun.1) noticeRun.2 :=
  Runs.of_run (fun trace => trace) (fun _ call => ⟨0, noticeSite.world,
    _, noticeSite.respond_performs call, rfl⟩) _ []

theorem noticeRun_decision : noticeRun.1.1 = noticeDecision := by
  decide +kernel

/-- Mail reaches the relay only after the registration succeeded and a decision
of the control plane permitted each of its recipients, on the grounds that the
trace of that decision shows. -/
theorem submit_permitted (locale : Locale) (p : Platform)
    (request : DeliveryRequest) (sender : Text) (recipients : List Text)
    (message : Text) (next : Except Error Unit →
      Program gateInterface (Except Error Unit)) (history : List GateEvent)
    (hruns : Runs recording (Gate.deliver request).run []
      (.call (.submit sender recipients message) next) history) :
    ∃ metadata, Cleared request metadata sender recipients message history ∧
      ∀ recipient ∈ recipients, ∃ response,
        (⟨.decide metadata.queueID recipient, .ok response⟩ : GateEvent) ∈ history ∧
        ∀ actor correlationID decided trace, Runs (serving locale p).performs
            (p.decideRequest actor correlationID
              { stage := .transport, queueID := metadata.queueID, recipient })
            [] (.done decided) trace →
          response = outboundDecisionResponse decided.1 → decided.1.action = .ok ∧
            Grounds locale p metadata.queueID recipient trace := by
  have hsafe := deliver_handover request [] rfl
  obtain ⟨⟨metadata, hcleared⟩, _⟩ := Setting.Safe.of_runs (E := handover request) hruns hsafe
  refine ⟨metadata, hcleared, fun recipient hrecipient => ?_⟩
  obtain ⟨_, decisions, hhistory, _, hdecisions⟩ := hcleared.events
  rw [hcleared.recipients] at hrecipient
  obtain ⟨event, hevent, response, decision, rfl, hdecision, hok⟩ :=
    mem_of_forall₂ (List.Forall₂.flip hdecisions) hrecipient
  refine ⟨response, by simp [hhistory, hevent], ?_⟩
  rintro actor correlationID decided trace hdecide rfl
  have haction := action_of_readDecision hdecision hok
  have hserved : (serving locale p).Safe _ (.done decided) trace :=
    (decideRequest_served actor correlationID rfl [] trivial).of_runs hdecide
  exact ⟨haction, hserved haction⟩

theorem submit_permitted_notice :
    Cleared noticeDelivery noticeMetadata (ascii "<>") [ascii "a@example.test"]
        (ascii "notice") noticeHistory ∧
      Grounds byteLocale asciiPlatform (ascii "3bQzXk5Wn4z1v")
        (ascii "a@example.test") noticeRun.2 := by
  obtain ⟨metadata, hcleared, hall⟩ := submit_permitted byteLocale asciiPlatform
    _ _ _ _ _ _ noticeDelivery_runs
  obtain ⟨_, _, hhistory, _⟩ := hcleared.events
  cases (List.cons.inj hhistory).1
  obtain ⟨response, hresponse, hgrounds⟩ := hall _ List.mem_cons_self
  refine ⟨hcleared, (hgrounds _ _ _ _ noticeRun_runs ?_).2⟩
  simp only [noticeHistory, List.mem_cons, GateEvent.mk.injEq, reduceCtorEq,
    false_and, false_or, List.not_mem_nil, or_false] at hresponse
  rw [noticeRun_decision]
  exact Except.ok.inj (eq_of_heq hresponse.2)

end GotthMail
