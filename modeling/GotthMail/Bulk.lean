/-
Bulk operations on mailboxes and aliases.  The rows change in one transaction,
while every item is reported to the audit writer as soon as its statement has
run.
-/
import GotthMail.ImportTables
import GotthMail.OpenPGP

namespace GotthMail

open Bytes Sha256 Framing

inductive BulkOperation where
  | disableUsers
  | enableUsers
  | deleteAliases
  | other (raw : Text)
deriving DecidableEq

def BulkOperation.text : BulkOperation → Text
  | .disableUsers => ascii "disable-users"
  | .enableUsers => ascii "enable-users"
  | .deleteAliases => ascii "delete-aliases"
  | .other raw => raw

/-- What an operation says of an item that is not an address. -/
def BulkOperation.invalid : BulkOperation → Option String
  | .disableUsers => some "invalid bulk mailbox: "
  | .enableUsers => some "invalid bulk mailbox: "
  | .deleteAliases => some "invalid bulk alias: "
  | .other _ => none

structure BulkPreview where
  id : Text
  operation : BulkOperation
  actorID : Text
  hash : Text
  expiresAt : Time
  items : List Text
deriving DecidableEq

structure BulkResult where
  item : Text
  status : String
  reason : String
deriving DecidableEq

structure BulkEvent where
  actor : ActorRef
  action : Text
  resourceType : String
  resourceID : Text
  result : String
deriving DecidableEq

structure BulkTables where
  domains : List DomainEntry
  mailboxes : List AddressEntry
  aliases : List AddressEntry
deriving DecidableEq

/-- What the database and the audit writer answer, item by item.  A commit that
reports an error may have been applied. -/
structure BulkAnswers where
  begins : Bool
  executes : Nat → Bool
  audits : Nat → Bool
  commits : Bool
  applied : Bool

def bulkPreview (operation : BulkOperation) (items : List Text) (actor : ActorRef)
    (now : Time) : BulkPreview :=
  let digest := sum256 (operation.text ++ [0].intercalate items ++ actor.id)
  { id := ascii "bulk_" ++ encodeHex (digest.take 4)
    operation := operation
    actorID := actor.id
    hash := encodeHex digest
    expiresAt := now + ImportSite.previewLifetime
    items := items }

def previewBulk (operation : BulkOperation) (items : List Text) (actor : ActorRef)
    (now : Time) : Except Error BulkPreview := do
  check operation.invalid.isSome "unsupported bulk operation"
  check (items != [] && items.all fun item => trimSpace item != []) "bulk item scope required"
  return bulkPreview operation items actor now

/-- The row of an address, by the name of its domain and its local part. -/
def BulkTables.names (tables : BulkTables) (domain localPart : Text) (row : AddressEntry) : Bool :=
  row.localPart == localPart &&
    tables.domains.any fun entry => entry.id == row.domainID && entry.name == domain

def BulkTables.enable (tables : BulkTables) (now : Time) (domain localPart : Text)
    (enabled : Bool) : Nat × BulkTables :=
  (tables.mailboxes.countP (tables.names domain localPart),
    { tables with mailboxes := tables.mailboxes.map fun row =>
        if tables.names domain localPart row then
          { row with enabled := enabled, updatedAt := now }
        else row })

/-- The statement of an operation for one address: how many rows it affects, and
the tables after it. -/
def BulkOperation.statement (now : Time) (tables : BulkTables)
    (domain localPart : Text) : BulkOperation → Option (Nat × BulkTables)
  | .disableUsers => some (tables.enable now domain localPart false)
  | .enableUsers => some (tables.enable now domain localPart true)
  | .deleteAliases => some (tables.aliases.countP (tables.names domain localPart),
      { tables with
        aliases := tables.aliases.filter fun row => !tables.names domain localPart row })
  | .other _ => none

section Apply

variable (p : Platform) (answers : BulkAnswers) (actor : ActorRef) (now : Time)
  (operation : BulkOperation)

/-- One item: its statement, and what the result list says about it. -/
def bulkItem (index : Nat) (raw : Text) (tables : BulkTables) :
    Except Error (BulkResult × BulkTables) := do
  let item := p.lower (trimSpace raw)
  check (item != []) "bulk item scope required"
  let invalid ← require operation.invalid "unsupported bulk operation"
  let (localPart, domain) ← require ((cutAddress item).filter fun parts =>
    parts.1 != [] && validateDomainName p parts.2) (invalid ++ nameString item)
  let (affected, next) ← require (operation.statement now tables domain localPart)
    "unsupported bulk operation"
  if answers.executes index then
    return (if affected = 0 then ⟨item, "not_found", "canonical record not found"⟩
      else ⟨item, "success", ""⟩, next)
  else .error .sql

def bulkEvent (item : Text) : BulkEvent :=
  ⟨actor, ascii "bulk." ++ operation.text, "bulk_item", item, "success"⟩

/-- The loop over the items, with the audit events it has written. -/
def bulkItems : Nat → List Text → BulkTables →
    Except Error (List BulkResult × BulkTables) × List BulkEvent
  | _, [], tables => (.ok ([], tables), [])
  | index, raw :: rest, tables =>
    match bulkItem p answers now operation index raw tables with
    | .error reason => (.error reason, [])
    | .ok (result, next) =>
      if answers.audits index then
        let (outcome, events) := bulkItems (index + 1) rest next
        (outcome.map fun (results, last) => (result :: results, last),
          bulkEvent actor operation result.item :: events)
      else (.error (.text "audit write failed"), [])

/-- What an application leaves: its answer, the tables and the audit events. -/
structure BulkOutcome where
  answer : Except Error (List BulkResult)
  tables : BulkTables
  events : List BulkEvent

/-- The checks of a confirmation against its preview. -/
def confirmBulk (previews : Text → Option BulkPreview) (id confirm hash : Text) :
    Except Error BulkPreview := do
  let preview ← require (previews id) "bulk preview not found"
  check (actor.id == preview.actorID) "actor mismatch"
  check (operation == preview.operation) "bulk operation mismatch"
  check (decide (now ≤ preview.expiresAt)) "preview expired"
  check (confirm == preview.id && hash == preview.hash) "bulk confirmation mismatch"
  return preview

/-- What follows a confirmation in the database. -/
def runBulk (items : List Text) (tables : BulkTables) : BulkOutcome :=
  if answers.begins then
    match bulkItems p answers actor now operation 0 items tables with
    | (.error reason, events) => ⟨.error reason, tables, events⟩
    | (.ok (results, last), events) =>
      if answers.commits then ⟨.ok results, last, events⟩
      else ⟨.error .sql, if answers.applied then last else tables, events⟩
  else ⟨.error .sql, tables, []⟩

def applyBulk (previews : Text → Option BulkPreview) (id confirm hash : Text)
    (tables : BulkTables) : BulkOutcome :=
  match confirmBulk actor now operation previews id confirm hash with
  | .error reason => ⟨.error reason, tables, []⟩
  | .ok preview => runBulk p answers actor now preview.operation preview.items tables

/-- A row as a bulk operation leaves it. -/
def BulkOperation.stamp (row : AddressEntry) : AddressEntry :=
  { row with enabled := operation == .enableUsers, updatedAt := now }

/-- The row of an item was found before, and afterwards it is changed or gone. -/
def BulkOperation.Changed (before after : BulkTables) (item : Text) : Prop :=
  ∃ localPart domain, cutAddress item = some (localPart, domain) ∧
    if operation = .deleteAliases then
      (∃ row ∈ before.aliases, before.names domain localPart row = true) ∧
        ∀ row ∈ after.aliases, after.names domain localPart row = false
    else ∃ row ∈ before.mailboxes, before.names domain localPart row = true ∧
      operation.stamp now row ∈ after.mailboxes

/-- The tables change from item to item, by the rows of the items that are reported found. -/
inductive BulkTrail : BulkTables → List BulkResult → BulkTables → Prop
  | done {tables : BulkTables} : BulkTrail tables [] tables
  | item {tables next last : BulkTables} {result : BulkResult} {results : List BulkResult}
      (hitem : result.status = "success" ↔ operation.Changed now tables next result.item)
      (hrest : BulkTrail next results last) : BulkTrail tables (result :: results) last

/-- The rows and the audit events agree with the answer. -/
def BulkOutcome.Agrees (outcome : BulkOutcome) (items : List Text) (before : BulkTables) : Prop :=
  match outcome.answer with
  | .error _ => outcome.tables.mailboxes = before.mailboxes ∧
      outcome.tables.aliases = before.aliases ∧ outcome.events = []
  | .ok results => results.map BulkResult.item = items.map (fun raw => p.lower (trimSpace raw)) ∧
      BulkTrail now operation before results outcome.tables ∧
      ∀ result ∈ results, (∃ event ∈ outcome.events,
        event.resourceID = result.item ∧ event.result = "success") ↔ result.status = "success"

/-- Every item is valid, its row is found in its turn, and nothing fails. -/
def allFound : Nat → List Text → BulkTables → Bool
  | _, [], _ => true
  | index, raw :: rest, tables =>
    match bulkItem p answers now operation index raw tables with
    | .error _ => false
    | .ok (result, next) => result.status == "success" && answers.audits index &&
        allFound (index + 1) rest next

def failsFirst (items : List Text) (tables : BulkTables) : Bool :=
  items.head?.any fun raw =>
    !answers.audits 0 || !(bulkItem p answers now operation 0 raw tables).toBool

end Apply

section Agreement

variable {p : Platform} {answers : BulkAnswers} {actor : ActorRef} {now : Time}
  {operation : BulkOperation} {tables last : BulkTables} {items : List Text}
  {index : Nat} {results : List BulkResult} {events : List BulkEvent}

theorem enable_changed {domain localPart item : Text}
    (hitem : cutAddress item = some (localPart, domain)) (hoperation : operation ≠ .deleteAliases) :
    let done := tables.enable now domain localPart (operation == .enableUsers)
    done.1 ≠ 0 ↔ operation.Changed now tables done.2 item := by
  intro done
  rw [← Nat.pos_iff_ne_zero]
  constructor
  · intro hfound
    obtain ⟨row, hrow, hnamed⟩ := List.countP_pos_iff.mp hfound
    refine ⟨localPart, domain, hitem, ?_⟩
    rw [if_neg hoperation]
    exact ⟨row, hrow, hnamed, List.mem_map.mpr ⟨row, hrow, if_pos hnamed⟩⟩
  · rintro ⟨_, _, hsame, hrows⟩
    cases hitem.symm.trans hsame
    rw [if_neg hoperation] at hrows
    obtain ⟨row, hrow, hnamed, -⟩ := hrows
    exact List.countP_pos_iff.mpr ⟨row, hrow, hnamed⟩

/-- A statement changes the row of its address when it affects one. -/
theorem statement_changed {domain localPart item : Text} {affected : Nat} {next : BulkTables}
    (hitem : cutAddress item = some (localPart, domain))
    (hstatement : operation.statement now tables domain localPart = some (affected, next)) :
    affected ≠ 0 ↔ operation.Changed now tables next item := by
  cases operation with
  | disableUsers | enableUsers =>
    cases hstatement
    exact enable_changed hitem (by decide)
  | other raw => cases hstatement
  | deleteAliases =>
    cases hstatement
    rw [← Nat.pos_iff_ne_zero, List.countP_pos_iff]
    constructor
    · intro hfound
      refine ⟨localPart, domain, hitem, ?_⟩
      rw [if_pos rfl]
      refine ⟨hfound, fun row hrow => ?_⟩
      have hunnamed := (List.mem_filter.mp hrow).2
      rwa [Bool.not_eq_true'] at hunnamed
    · rintro ⟨_, _, hsame, hrows⟩
      cases hitem.symm.trans hsame
      rw [if_pos rfl] at hrows
      exact hrows.1

theorem bulkItem_ok {raw : Text} {result : BulkResult}
    (hitem : bulkItem p answers now operation index raw tables = .ok (result, last)) :
    result.item = p.lower (trimSpace raw) ∧
      (result.status = "success" ↔ operation.Changed now tables last result.item) := by
  simp only [bulkItem, bind_ok_iff, require_ok_iff, Prod.exists] at hitem
  obtain ⟨_, _, _, _, localPart, domain, hparts, affected, next, hstatement, hresult⟩ := hitem
  split at hresult
  · rw [pure_ok_iff, Prod.mk.injEq] at hresult
    obtain ⟨rfl, rfl⟩ := hresult
    have hchanged := statement_changed (Option.filter_eq_some_iff.mp hparts).1 hstatement
    by_cases hmissing : affected = 0
    · rw [if_pos hmissing]
      exact ⟨rfl, iff_of_false (by simp) fun hrow => hchanged.mpr hrow hmissing⟩
    · rw [if_neg hmissing]
      exact ⟨rfl, iff_of_true rfl (hchanged.mp hmissing)⟩
  · cases hresult

/-- What a loop that ends has done: an event for every item, found or not. -/
structure Audited (p : Platform) (actor : ActorRef) (now : Time) (operation : BulkOperation)
    (items : List Text) (tables last : BulkTables) (found : Bool) (results : List BulkResult)
    (events : List BulkEvent) : Prop where
  items : results.map BulkResult.item = items.map fun raw => p.lower (trimSpace raw)
  events : events = results.map fun result => bulkEvent actor operation result.item
  trail : BulkTrail now operation tables results last
  found : found = true ↔ ∀ result ∈ results, result.status = "success"

theorem bulkItems_spec {outcome : Except Error (List BulkResult × BulkTables)}
    (hloop : bulkItems p answers actor now operation index items tables = (outcome, events)) :
    match outcome with
    | .error _ => allFound p answers now operation index items tables = false
    | .ok (results, last) => Audited p actor now operation items tables last
        (allFound p answers now operation index items tables) results events := by
  induction items generalizing index tables outcome events with
  | nil =>
    cases hloop
    exact ⟨rfl, rfl, .done, by simp [allFound]⟩
  | cons raw rest ih =>
    rw [bulkItems] at hloop
    rw [allFound]
    cases hitem : bulkItem p answers now operation index raw tables with
    | error reason =>
      rw [hitem] at hloop
      cases hloop
      rfl
    | ok found =>
      obtain ⟨result, next⟩ := found
      simp only [hitem] at hloop ⊢
      by_cases haudit : answers.audits index = true
      · rw [if_pos haudit] at hloop
        cases hrest : bulkItems p answers actor now operation (index + 1) rest next with
        | mk others later =>
          have hlater := ih hrest
          rw [hrest] at hloop
          cases others with
          | error reason =>
            cases hloop
            exact (congrArg _ hlater).trans (Bool.and_false _)
          | ok pair =>
            cases hloop
            obtain ⟨hitems, hevents, htrail, hfound⟩ := hlater
            refine ⟨?_, ?_, .item (bulkItem_ok hitem).2 htrail, ?_⟩
            · rw [List.map_cons, List.map_cons, hitems, (bulkItem_ok hitem).1]
            · rw [hevents, List.map_cons]
            · simp [haudit, hfound]
      · rw [if_neg haudit] at hloop
        cases hloop
        simp [haudit]

variable (actor) in
theorem failsFirst_iff (hitems : items ≠ []) :
    failsFirst p answers now operation items tables = true ↔
      (bulkItems p answers actor now operation 0 items tables).2 = [] := by
  obtain ⟨raw, rest, rfl⟩ := List.exists_cons_of_ne_nil hitems
  rw [failsFirst, bulkItems, List.head?_cons, Option.any_some]
  cases hitem : bulkItem p answers now operation 0 raw tables with
  | error reason => simp [Except.toBool]
  | ok found =>
    by_cases haudit : answers.audits 0 = true
    · simp [Except.toBool, haudit]
    · simp [haudit]

/-- The events of a finished loop agree with its results exactly when every row
was found. -/
theorem events_agree_iff :
    (∀ result ∈ results, (∃ event ∈ results.map fun result => bulkEvent actor operation result.item,
      event.resourceID = result.item ∧ event.result = "success") ↔ result.status = "success") ↔
      ∀ result ∈ results, result.status = "success" := by
  refine forall₂_congr fun result hresult => ?_
  refine ⟨fun hiff => hiff.mp ?_, fun hstatus => iff_of_true ?_ hstatus⟩ <;>
  exact ⟨_, List.mem_map_of_mem hresult, rfl, rfl⟩

end Agreement

/-- Rows and audit events agree exactly when nothing is done, the first item
fails, or every item is found and nothing fails. -/
theorem bulk_agrees_iff (p : Platform) (answers : BulkAnswers)
    {proposed operation : BulkOperation} {items : List Text} {author actor : ActorRef}
    {made now : Time} {preview : BulkPreview}
    (hpreview : previewBulk proposed items author made = .ok preview)
    {previews : Text → Option BulkPreview} {id : Text}
    (hstored : previews id = some preview) (confirm hash : Text) (tables : BulkTables) :
    (applyBulk p answers actor now operation previews id confirm hash tables).Agrees p
        now preview.operation preview.items tables ↔
      (confirmBulk actor now operation previews id confirm hash).toBool = false ∨
        answers.begins = false ∨
        failsFirst p answers now preview.operation preview.items tables = true ∨
        allFound p answers now preview.operation 0 preview.items tables = true ∧
          answers.commits = true := by
  have hitems : preview.items ≠ [] := by
    simp only [previewBulk, bind_ok_iff, check_ok_iff, pure_ok_iff, Bool.and_eq_true,
      bne_iff_ne] at hpreview
    obtain ⟨_, _, _, ⟨hitems, _⟩, rfl⟩ := hpreview
    exact hitems
  rw [applyBulk]
  cases hconfirm : confirmBulk actor now operation previews id confirm hash with
  | error reason => simp [BulkOutcome.Agrees, Except.toBool]
  | ok found =>
    obtain rfl : found = preview := by
      simp only [confirmBulk, bind_ok_iff, require_ok_iff, pure_ok_iff, hstored,
        Option.some.injEq] at hconfirm
      obtain ⟨_, hsame, _, _, _, _, _, _, _, _, rfl⟩ := hconfirm
      exact hsame.symm
    by_cases hbegins : answers.begins = true
    · simp only [runBulk, hbegins, if_true, Except.toBool, Bool.true_eq_false, false_or]
      rw [failsFirst_iff actor hitems]
      cases hloop : bulkItems p answers actor now found.operation 0 found.items tables with
      | mk outcome events =>
        cases outcome with
        | error reason =>
          have hfailed := bulkItems_spec hloop
          simp [BulkOutcome.Agrees, hfailed]
        | ok pair =>
          obtain ⟨results, last⟩ := pair
          obtain ⟨hresults, rfl, htrail, hfound⟩ := bulkItems_spec hloop
          have hsome : results ≠ [] := by
            rintro rfl
            exact hitems (List.map_eq_nil_iff.mp hresults.symm)
          by_cases hcommits : answers.commits = true
          · simp only [hcommits, if_true, BulkOutcome.Agrees, hfound,
              events_agree_iff, hresults, htrail, true_and,
              List.map_eq_nil_iff, hsome, false_or, and_true]
          · simp [hcommits, BulkOutcome.Agrees, hsome]
    · simp [runBulk, BulkOutcome.Agrees, hbegins]

section Sample

def bulkTables : BulkTables where
  domains := [⟨ascii "d", ascii "example.org", true, 0, 0⟩]
  mailboxes := [⟨ascii "m", ascii "d", ascii "a", true, none, 0, 0⟩,
    ⟨ascii "n", ascii "d", ascii "c", true, none, 0, 0⟩]
  aliases := []

def bulkActor : ActorRef := ⟨ascii "admin", ascii "root"⟩

/-- Two items that name the mailboxes, one of them with a blank and a capital. -/
def bulkNames : List Text := [ascii "a@example.org", ascii " C@example.org"]

def disabled (items : List Text) : BulkOutcome :=
  let preview := bulkPreview .disableUsers items bulkActor 0
  applyBulk asciiPlatform ⟨true, fun _ => true, fun _ => true, true, false⟩ bulkActor 0
    .disableUsers (fun _ => some preview) preview.id preview.id preview.hash bulkTables

theorem bulk_agrees_iff_found :
    (disabled bulkNames).Agrees asciiPlatform 0 .disableUsers bulkNames bulkTables := by
  have hpreview : previewBulk .disableUsers bulkNames bulkActor 0 =
      .ok (bulkPreview .disableUsers bulkNames bulkActor 0) := by decide +kernel
  have hoperation : (bulkPreview .disableUsers bulkNames bulkActor 0).operation =
    .disableUsers := rfl
  have hitems : (bulkPreview .disableUsers bulkNames bulkActor 0).items = bulkNames := rfl
  unfold disabled
  generalize bulkPreview .disableUsers bulkNames bulkActor 0 = preview
    at hpreview hoperation hitems ⊢
  rw [← hitems, ← hoperation]
  refine (bulk_agrees_iff asciiPlatform _ hpreview rfl _ _ bulkTables).mpr ?_
  rw [hoperation, hitems]
  exact .inr (.inr (.inr ⟨by decide +kernel, rfl⟩))

set_option maxRecDepth 100000 in
/-- A mailbox that does not exist is reported to the audit as a success. -/
theorem missing_mailbox_audited :
    previewBulk .disableUsers [ascii "b@example.org"] bulkActor 0 =
        .ok (bulkPreview .disableUsers [ascii "b@example.org"] bulkActor 0) ∧
      ¬(disabled [ascii "b@example.org"]).Agrees asciiPlatform 0 .disableUsers
        [ascii "b@example.org"] bulkTables := by
  refine ⟨by decide +kernel, fun hagrees => ?_⟩
  have hrun : (disabled [ascii "b@example.org"]).answer =
        .ok [⟨ascii "b@example.org", "not_found", "canonical record not found"⟩] ∧
      (disabled [ascii "b@example.org"]).events =
        [bulkEvent bulkActor .disableUsers (ascii "b@example.org")] := by decide +kernel
  have hstatus := (hagrees.2.2 _ List.mem_cons_self).mp ⟨_, List.mem_cons_self, rfl, rfl⟩
  exact absurd hstatus (by decide)

end Sample

section Binding

structure BulkMaps where
  users : Text → Option Bool
  aliases : Text → Option Bool

def BulkOperation.store (maps : BulkMaps) (item : Text) : BulkOperation → Option BulkMaps
  | .disableUsers => some ⟨Function.update maps.users item (some false), maps.aliases⟩
  | .enableUsers => some ⟨Function.update maps.users item (some true), maps.aliases⟩
  | .deleteAliases => some ⟨maps.users, Function.update maps.aliases item none⟩
  | .other _ => none

/-- The store in memory looks at the items once more. -/
def confirmStored (actor : ActorRef) (now : Time) (operation : BulkOperation)
    (previews : Text → Option BulkPreview) (id confirm hash : Text) :
    Except Error BulkPreview := do
  let preview ← require (previews id) "bulk preview not found"
  check (actor.id == preview.actorID) "actor mismatch"
  check (operation == preview.operation) "bulk operation mismatch"
  check (preview.items.all fun item => trimSpace item != []) "bulk item scope required"
  check (decide (now ≤ preview.expiresAt)) "preview expired"
  check (confirm == preview.id && hash == preview.hash) "bulk confirmation mismatch"
  return preview

/-- What follows a confirmation in memory: all the audit events, then the maps. -/
def runStored (audits : Nat → Bool) (actor : ActorRef) (operation : BulkOperation)
    (items : List Text) (maps : BulkMaps) :
    Except Error (List BulkResult) × BulkMaps × List BulkEvent :=
  let events := items.map (bulkEvent actor operation)
  let written := ((List.range items.length).takeWhile audits).length
  if written < items.length then
    (.error (.text "audit write failed"), maps, events.take written)
  else
    match items.foldlM (fun maps item => operation.store maps item) maps with
    | none => (.error (.text "unsupported bulk operation"), maps, events)
    | some last => (.ok (items.map (⟨·, "success", ""⟩)), last, events)

def applyStored (audits : Nat → Bool) (actor : ActorRef) (now : Time) (operation : BulkOperation)
    (previews : Text → Option BulkPreview) (id confirm hash : Text) (maps : BulkMaps) :
    Except Error (List BulkResult) × BulkMaps × List BulkEvent :=
  match confirmStored actor now operation previews id confirm hash with
  | .error reason => (.error reason, maps, [])
  | .ok preview => runStored audits actor preview.operation preview.items maps

structure BulkCall where
  operation : BulkOperation
  items : List Text
  actor : ActorRef
  now : Time

namespace BulkCall

def answer (call : BulkCall) : Except Error BulkPreview :=
  previewBulk call.operation call.items call.actor call.now

/-- A preview replaces the one that has its ID. -/
def store (previews : Text → Option BulkPreview) (call : BulkCall) : Text → Option BulkPreview :=
  match call.answer with
  | .ok preview => Function.update previews preview.id (some preview)
  | .error _ => previews

def transcript (call : BulkCall) : Text :=
  call.operation.text ++ [0].intercalate call.items ++ call.actor.id

/-- The call returned this ID and hash to the actor. -/
def Returned (call : BulkCall) (actor : ActorRef) (id hash : Text) : Prop :=
  call.actor = actor ∧ ∃ preview, call.answer = .ok preview ∧ preview.id = id ∧ preview.hash = hash

theorem answer_ok {call : BulkCall} {preview : BulkPreview} (hcall : call.answer = .ok preview) :
    preview = bulkPreview call.operation call.items call.actor call.now ∧
      call.operation.invalid.isSome = true ∧ call.items ≠ [] ∧
      (call.items.all fun item => trimSpace item != []) = true := by
  simp only [answer, previewBulk, bind_ok_iff, check_ok_iff, pure_ok_iff, Bool.and_eq_true,
    bne_iff_ne] at hcall
  obtain ⟨_, hoperation, _, ⟨hitems, hscope⟩, rfl⟩ := hcall
  exact ⟨rfl, hoperation, hitems, by simpa using hscope⟩

end BulkCall

def storedPreviews (history : List BulkCall) : Text → Option BulkPreview :=
  history.foldl BulkCall.store fun _ => none

variable {history : List BulkCall} {actor : ActorRef} {now : Time} {operation : BulkOperation}
  {id confirm hash : Text} {preview : BulkPreview}

theorem storedPreviews_call (hstored : storedPreviews history id = some preview) :
    ∃ call ∈ history, call.answer = .ok preview ∧ preview.id = id := by
  induction history using List.reverseRecOn generalizing preview with
  | nil => cases hstored
  | append_singleton earlier call ih =>
    rw [storedPreviews, List.foldl_append] at hstored
    change BulkCall.store (storedPreviews earlier) call id = some preview at hstored
    have hearlier (hsame : storedPreviews earlier id = some preview) :
        ∃ found ∈ earlier ++ [call], found.answer = .ok preview ∧ preview.id = id := by
      obtain ⟨found, hmem, hfound⟩ := ih hsame
      exact ⟨found, List.mem_append_left _ hmem, hfound⟩
    rw [BulkCall.store] at hstored
    cases hmade : call.answer with
    | error reason =>
      rw [hmade] at hstored
      exact hearlier hstored
    | ok made =>
      rw [hmade] at hstored
      by_cases hid : id = made.id
      · simp only [hid, Function.update_self, Option.some.injEq] at hstored
        exact ⟨call, by simp, hstored ▸ hmade, hstored ▸ hid.symm⟩
      · simp only [Function.update_of_ne hid] at hstored
        exact hearlier hstored

/-- No text of an operation begins another. -/
theorem BulkOperation.text_append_inj {left right : BulkOperation} {first second : Text}
    (hleft : left.invalid.isSome = true) (hright : right.invalid.isSome = true)
    (heq : left.text ++ first = right.text ++ second) : left = right ∧ first = second := by
  cases left <;> cases right <;>
    simp_all [BulkOperation.text, BulkOperation.invalid, ascii]

/-- Every preview has items, so both stores confirm alike. -/
theorem confirmStored_eq :
    confirmStored actor now operation (storedPreviews history) id confirm hash =
      confirmBulk actor now operation (storedPreviews history) id confirm hash := by
  rw [confirmStored, confirmBulk]
  cases hstored : storedPreviews history id with
  | none => rfl
  | some preview =>
    have hscope : (preview.items.all fun item => trimSpace item != []) = true := by
      obtain ⟨call, _, hcall, _⟩ := storedPreviews_call hstored
      obtain ⟨rfl, _, _, hscope⟩ := BulkCall.answer_ok hcall
      exact hscope
    simp only [require, bind, Except.bind, hscope]
    rfl

/-- The calls that returned an ID and a hash to one actor asked for one list. -/
theorem returned_agree (hsum : Set.InjOn sum256 {text | ∃ call ∈ history, text = call.transcript})
    (hitems : ∀ call ∈ history, ∀ item ∈ call.items, 0 ∉ item) {left right : BulkCall}
    (hleft : left ∈ history) (hright : right ∈ history) (hfirst : left.Returned actor id hash)
    (hsecond : right.Returned actor id hash) :
    left.operation = right.operation ∧ left.items = right.items := by
  obtain ⟨rfl, _, hmade, -, rfl⟩ := hfirst
  obtain ⟨hactor, _, hagain, -, hhash⟩ := hsecond
  obtain ⟨rfl, hoperation, hsome, -⟩ := BulkCall.answer_ok hmade
  obtain ⟨rfl, hother, hothers, -⟩ := BulkCall.answer_ok hagain
  have htexts : right.transcript = left.transcript :=
    hsum ⟨_, hright, rfl⟩ ⟨_, hleft, rfl⟩ (encodeHex_injective hhash)
  rw [BulkCall.transcript, BulkCall.transcript, hactor, List.append_left_inj] at htexts
  obtain ⟨hsame, hjoin⟩ := BulkOperation.text_append_inj hother hoperation htexts
  refine ⟨hsame.symm, ?_⟩
  rw [← List.splitOn_intercalate 0 (hitems _ hleft) hsome, ← hjoin,
    List.splitOn_intercalate 0 (hitems _ hright) hothers]

/-- A confirmed preview runs the list of the call that returned it.  The hash
tells lists apart when no item has the separator in it. -/
theorem confirmed_runs_preview
    (hsum : Set.InjOn sum256 {text | ∃ call ∈ history, text = call.transcript})
    (hitems : ∀ call ∈ history, ∀ item ∈ call.items, 0 ∉ item)
    (hactors : ∀ call ∈ history, call.actor.id = actor.id → call.actor = actor)
    (haccepted :
      (confirmBulk actor now operation (storedPreviews history) id confirm hash).toBool = true ∨
      (confirmStored actor now operation (storedPreviews history) id confirm hash).toBool = true) :
    ∃ call ∈ history, call.Returned actor id hash ∧ call.operation = operation ∧
      now ≤ call.now + ImportSite.previewLifetime ∧
      (∀ other ∈ history, other.Returned actor id hash →
        other.operation = operation ∧ other.items = call.items) ∧
      (∀ p answers tables, applyBulk p answers actor now operation (storedPreviews history) id
        confirm hash tables = runBulk p answers actor now operation call.items tables) ∧
      ∀ audits maps, applyStored audits actor now operation (storedPreviews history) id confirm
        hash maps = runStored audits actor operation call.items maps := by
  rw [confirmStored_eq, or_self] at haccepted
  cases hconfirm : confirmBulk actor now operation (storedPreviews history) id confirm hash with
  | error reason => simp [hconfirm, Except.toBool] at haccepted
  | ok preview =>
    have hchecks := hconfirm
    simp only [confirmBulk, bind_ok_iff, require_ok_iff, check_ok_iff, pure_ok_iff, beq_iff_eq,
      decide_eq_true_eq, Bool.and_eq_true] at hchecks
    obtain ⟨preview, hstored, _, hactor, _, rfl, _, hnow, _, ⟨rfl, rfl⟩, rfl⟩ := hchecks
    obtain ⟨call, hmem, hcall, hid⟩ := storedPreviews_call hstored
    have hreturned : call.Returned actor id preview.hash := by
      refine ⟨hactors call hmem ?_, preview, hcall, hid, rfl⟩
      rw [hactor, (BulkCall.answer_ok hcall).1]
      rfl
    have hagree : preview.operation = call.operation ∧ preview.items = call.items ∧
        preview.expiresAt = call.now + ImportSite.previewLifetime := by
      rw [(BulkCall.answer_ok hcall).1]
      exact ⟨rfl, rfl, rfl⟩
    refine ⟨call, hmem, hreturned, hagree.1.symm, hagree.2.2 ▸ hnow, ?_, ?_, ?_⟩
    · intro other hother hagain
      rw [hagree.1]
      exact returned_agree hsum hitems hother hmem hagain hreturned
    · intro p answers tables
      rw [applyBulk, hconfirm, ← hagree.2.1]
    · intro audits maps
      rw [applyStored, confirmStored_eq, hconfirm, ← hagree.2.1]

def bulkCall (items : List Text) : BulkCall := ⟨.disableUsers, items, bulkActor, 0⟩

set_option maxRecDepth 100000 in
theorem confirmed_runs_preview_second :
    let one := bulkCall bulkNames
    let two := bulkCall [ascii "b@example.org", ascii "d@example.org", ascii "e@example.org"]
    let shown := bulkPreview .disableUsers two.items bulkActor 0
    ∃ call ∈ [one, two], call.Returned bulkActor shown.id shown.hash ∧ ∀ audits maps,
      applyStored audits bulkActor 0 .disableUsers (storedPreviews [one, two]) shown.id shown.id
        shown.hash maps = runStored audits bulkActor .disableUsers call.items maps := by
  intro one two shown
  have haccepted : (confirmBulk bulkActor 0 .disableUsers (storedPreviews [one, two]) shown.id
    shown.id shown.hash).toBool = true := by decide +kernel
  have hdigests : sum256 one.transcript ≠ sum256 two.transcript := by decide +kernel
  have hsum : Set.InjOn sum256 {text | ∃ call ∈ [one, two], text = call.transcript} := by
    rintro _ ⟨_, hleft, rfl⟩ _ ⟨_, hright, rfl⟩ hsame
    rcases List.mem_pair.mp hleft with rfl | rfl <;> rcases List.mem_pair.mp hright with rfl | rfl
    · rfl
    · exact absurd hsame hdigests
    · exact absurd hsame.symm hdigests
    · rfl
  obtain ⟨call, hmem, hreturned, _, _, _, _, hruns⟩ :=
    confirmed_runs_preview hsum (by decide) (by decide) (.inl haccepted)
  exact ⟨call, hmem, hreturned, hruns⟩

set_option maxRecDepth 100000 in
/-- One item that contains the separator shares its preview with two items: the
confirmation of the first runs the second. -/
theorem separator_in_item_confused :
    let one := bulkCall [ascii "a" ++ 0 :: ascii "b"]
    let two := bulkCall [ascii "a", ascii "b"]
    let shown := bulkPreview .disableUsers one.items bulkActor 0
    one.transcript = two.transcript ∧ one.answer = .ok shown ∧
      (confirmBulk bulkActor 0 .disableUsers (storedPreviews [one, two]) shown.id shown.id
        shown.hash).map BulkPreview.items = .ok two.items ∧ one.items ≠ two.items := by
  decide +kernel

end Binding

end GotthMail
