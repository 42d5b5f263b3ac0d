/-
The audit log: the rows of `audit_events`, the writers that insert them, and
what they keep of the documents before and after a change.  Values under names
that sound like a secret are replaced once a document has been decoded; one that
does not decode is written as it is.
-/
import GotthMail.Json
import GotthMail.ScimStore

namespace GotthMail

open Bytes

abbrev Member := Text × JsonValue

def secretKeys : List Text :=
  ["password", "token", "secret", "private_key", "client_secret", "app_password",
    "verifier", "key"].map ascii

def isSecret (p : Platform) (name : Text) : Bool :=
  secretKeys.any fun word => (indexOf word (p.lower name)).isSome

def redactedText : JsonValue := .string (ascii "[REDACTED]")

section Redaction

variable (secret : Text → Bool)

mutual

/-- A document without the values under secret names. -/
def redactValue : JsonValue → JsonValue
  | .null => .null
  | .bool value => .bool value
  | .number literal => .number literal
  | .string value => .string value
  | .array items => .array (redactItems items)
  | .object members => .object (redactMembers members)

def redactItems : List JsonValue → List JsonValue
  | [] => []
  | item :: rest => redactValue item :: redactItems rest

def redactMembers : List Member → List Member
  | [] => []
  | (name, value) :: rest =>
    (name, if secret name then redactedText else redactValue value) :: redactMembers rest

end

end Redaction

/-- The most levels of arrays and objects that the decoder accepts. -/
def maxNestingDepth : Nat := 10000

mutual

/-- The levels of arrays and objects. -/
def JsonValue.depth : JsonValue → Nat
  | .array items => 1 + itemsDepth items
  | .object members => 1 + membersDepth members
  | _ => 0

def itemsDepth : List JsonValue → Nat
  | [] => 0
  | item :: rest => max item.depth (itemsDepth rest)

def membersDepth : List Member → Nat
  | [] => 0
  | (_, value) :: rest => max value.depth (membersDepth rest)

end

/-- Set a member of a map, whose members are kept in the order of their names. -/
def setMember (name : Text) (value : JsonValue) : List Member → List Member
  | [] => [(name, value)]
  | member :: rest =>
    if name = member.1 then (name, value) :: rest
    else if byteOrder.le name member.1 then (name, value) :: member :: rest
    else member :: setMember name value rest

/-- The map that the members of an object fill. -/
def mapOf (members : List Member) : List Member :=
  members.foldl (fun found member => setMember member.1 member.2 found) []

/-- The floating point numbers of the program: the text in which the number of
a literal is written, when it is in range. -/
structure NumberFormat where
  convert : Text → Option Text
  stable : ∀ literal text, convert literal = some text → (convert text).isSome = true

section Decoder

variable (numbers : NumberFormat)

mutual

/-- A document as generic values of the program. -/
def decodeValue : JsonValue → Option JsonValue
  | .null => some .null
  | .bool value => some (.bool value)
  | .number literal => (numbers.convert literal).map .number
  | .string value => some (.string value)
  | .array items => (decodeItems items).map .array
  | .object members => (decodeMembers members).map fun found =>
    .object (mapOf found)

def decodeItems : List JsonValue → Option (List JsonValue)
  | [] => some []
  | item :: rest => do
      let value ← decodeValue item
      let values ← decodeItems rest
      return value :: values

def decodeMembers : List Member → Option (List Member)
  | [] => some []
  | (name, value) :: rest => do
      let found ← decodeValue value
      let members ← decodeMembers rest
      return (name, found) :: members

end

/-- The decoder on the text of a document. -/
def unmarshal (document : JsonValue) : Option JsonValue :=
  if document.depth ≤ maxNestingDepth then decodeValue numbers document else none

end Decoder

mutual

/-- The text of a document. -/
def marshal : JsonValue → Text
  | .null => ascii "null"
  | .bool true => ascii "true"
  | .bool false => ascii "false"
  | .number literal => literal
  | .string value => Json.quote value
  | .array items => 91 :: marshalItems items ++ [93]
  | .object members => 123 :: marshalMembers members ++ [125]

def marshalItems : List JsonValue → Text
  | [] => []
  | [item] => marshal item
  | item :: next :: rest => marshal item ++ 44 :: marshalItems (next :: rest)

def marshalMembers : List Member → Text
  | [] => []
  | [(name, value)] => Json.quote name ++ 58 :: marshal value
  | (name, value) :: next :: rest =>
    Json.quote name ++ 58 :: marshal value ++ 44 :: marshalMembers (next :: rest)

end

structure RequestSource where
  ip : Text
  userAgent : Text

structure ResourceRef where
  type : Text
  id : Text

/-- An audit event with the documents before and after it; a document that is
not there is null. -/
structure AuditEntry where
  id : Text
  time : Time
  actor : ActorRef
  source : Option RequestSource
  action : Text
  resource : ResourceRef
  before : JsonValue
  after : JsonValue
  correlationID : Text
  result : Text
  errorCode : Text

structure AuditRow where
  id : Text
  timestamp : Time
  actorType : Text
  actorID : Text
  sourceIP : Option Text
  sourceUserAgent : Option Text
  action : Text
  resourceType : Text
  resourceID : Text
  beforeRedactedJSON : Option Text
  afterRedactedJSON : Option Text
  correlationID : Text
  result : Text
  errorCode : Option Text
deriving DecidableEq

/-- An empty text is a null column. -/
def nullString (text : Text) : Option Text := if text = [] then none else some text

/-- What the audit writers use: case of text, numbers, and what a new identifier
and the clock are at the moment. -/
structure AuditSite where
  platform : Platform
  numbers : NumberFormat
  newUUID : Text
  now : Time

namespace AuditSite

variable (site : AuditSite)

def secret : Text → Bool := isSecret site.platform

/-- A document that does not decode stays as it is. -/
def redact (document : JsonValue) : JsonValue :=
  match unmarshal site.numbers document with
  | none => document
  | some value => redactValue site.secret value

def normalize (entry : AuditEntry) : AuditEntry :=
  { entry with
    id := if entry.id = [] then site.newUUID else entry.id
    time := if entry.time = 0 then site.now else entry.time
    before := site.redact entry.before
    after := site.redact entry.after }

def rowOf (entry : AuditEntry) (before after : Option Text) : AuditRow where
  id := entry.id
  timestamp := entry.time
  actorType := entry.actor.type
  actorID := entry.actor.id
  sourceIP := entry.source.bind fun source => nullString source.ip
  sourceUserAgent := entry.source.bind fun source => nullString source.userAgent
  action := entry.action
  resourceType := entry.resource.type
  resourceID := entry.resource.id
  beforeRedactedJSON := before
  afterRedactedJSON := after
  correlationID := entry.correlationID
  result := entry.result
  errorCode := nullString entry.errorCode

/-- The row that `audit.WriteSQL` inserts. -/
def writeSQL (entry : AuditEntry) : AuditRow :=
  let normal := site.normalize entry
  rowOf normal (some (marshal normal.before)) (some (marshal normal.after))

/-- The row of the retention store, whose statement leaves out the source. -/
def writeRetention (entry : AuditEntry) : AuditRow :=
  let normal := { site.normalize entry with source := none }
  rowOf normal (some (marshal normal.before)) (some (marshal normal.after))

/-- The row of a SCIM transaction, with the data of its records as they are.  There is
none without an identity service, and a caller that is no SCIM client is refused. -/
def writeScim (request : ScimRequest) (entry : AuditEntry)
    (before after : ResourceRow) : Except ScimError (Option AuditRow) :=
  if request.identity.isNone then .ok none
  else if request.actor.type ≠ ascii "scim_client" ∨ request.actor.id = [] then
    .error (.text "authenticated SCIM actor is required")
  else .ok (some (rowOf { entry with
      id := site.newUUID
      time := site.now
      actor := request.actor
      resource := ⟨ascii "identity", if after.id = [] then before.id else after.id⟩
      result := ascii "success"
      errorCode := [] }
    (nullString before.data) (nullString after.data)))

end AuditSite

inductive AuditStatement where
  | event
  | retention
  | scim (request : ScimRequest) (before after : ResourceRow)

def AuditStatement.redacts : AuditStatement → Bool
  | .event => true
  | .retention => true
  | .scim _ _ _ => false

/-- A SCIM transaction writes a row for a SCIM client before an identity service only. -/
def AuditStatement.writes : AuditStatement → Bool
  | .event => true
  | .retention => true
  | .scim request _ _ => request.identity.isSome &&
      (request.actor.type == ascii "scim_client" && request.actor.id != [])

structure Documents where
  before : JsonValue
  after : JsonValue

/-- A record that is not there has no data. -/
def dataOf : JsonValue → Text
  | .null => []
  | document => marshal document

def ResourceRow.storing (row : ResourceRow) (document : JsonValue) : ResourceRow :=
  { row with data := dataOf document }

/-- The row that a statement inserts, if it inserts one. -/
def AuditStatement.row (site : AuditSite) (entry : AuditEntry)
    (documents : Documents) : AuditStatement → Option AuditRow
  | .event => some (site.writeSQL { entry with
      before := documents.before
      after := documents.after })
  | .retention => some (site.writeRetention { entry with
      before := documents.before
      after := documents.after })
  | .scim request before after => (site.writeScim request entry
      (before.storing documents.before) (after.storing documents.after)).toOption.join

section Matching

variable (secret : Text → Bool)

mutual

/-- Documents that are equal except for values under secret names. -/
inductive Matches : JsonValue → JsonValue → Prop
  | same (document : JsonValue) : Matches document document
  | array {left right : List JsonValue} (hitems : MatchingItems left right) :
      Matches (.array left) (.array right)
  | object {left right : List Member} (hmembers : MatchingMembers left right) :
      Matches (.object left) (.object right)

inductive MatchingItems : List JsonValue → List JsonValue → Prop
  | nil : MatchingItems [] []
  | cons {left right : JsonValue} {lefts rights : List JsonValue}
      (hitem : Matches left right) (hrest : MatchingItems lefts rights) :
      MatchingItems (left :: lefts) (right :: rights)

inductive MatchingMembers : List Member → List Member → Prop
  | nil : MatchingMembers [] []
  | secret {name : Text} {lefts rights : List Member}
      (left right : JsonValue) (hsecret : secret name = true)
      (hrest : MatchingMembers lefts rights) :
      MatchingMembers ((name, left) :: lefts) ((name, right) :: rights)
  | plain {left right : JsonValue} {lefts rights : List Member} (name : Text)
      (hvalue : Matches left right) (hrest : MatchingMembers lefts rights) :
      MatchingMembers ((name, left) :: lefts) ((name, right) :: rights)

end

end Matching

section Maps

variable {secret : Text → Bool}

def redactMember (secret : Text → Bool) (member : Member) : Member :=
  (member.1, if secret member.1 then redactedText
    else redactValue secret member.2)

theorem redactMembers_setMember (name : Text) (value : JsonValue) (members : List Member) :
    redactMembers secret (setMember name value members) =
      setMember name (redactMember secret (name, value)).2 (redactMembers secret members) := by
  induction members with
  | nil => rfl
  | cons member rest ih =>
    rw [setMember, redactMembers, setMember]
    split
    · rfl
    · split
      · rfl
      · rw [redactMembers, ih]

/-- It is the same to redact a map and the members that fill it. -/
theorem redactMembers_mapOf (members : List Member) :
    redactMembers secret (mapOf members) = mapOf (redactMembers secret members) := by
  have hfold : ∀ found, redactMembers secret (members.foldl
        (fun found member => setMember member.1 member.2 found) found) =
      (redactMembers secret members).foldl (fun found member => setMember member.1 member.2 found)
        (redactMembers secret found) := by
    induction members with
    | nil => intro found; rfl
    | cons member rest ih =>
      intro found
      rw [List.foldl_cons, ih, redactMembers_setMember]
      rfl
  exact hfold []

theorem mem_setMember {name : Text} {value : JsonValue} {members : List Member}
    {member : Member} (hmem : member ∈ setMember name value members) :
    member = (name, value) ∨ member ∈ members := by
  induction members with
  | nil => exact .inl (List.mem_singleton.mp hmem)
  | cons head rest ih =>
    rw [setMember] at hmem
    split at hmem
    · exact (List.mem_cons.mp hmem).imp_right (List.mem_cons_of_mem head)
    · split at hmem
      · exact List.mem_cons.mp hmem
      · rcases List.mem_cons.mp hmem with rfl | hrest
        · exact .inr List.mem_cons_self
        · exact (ih hrest).imp_right (List.mem_cons_of_mem head)

theorem mem_mapOf {members : List Member} {member : Member}
    (hmem : member ∈ mapOf members) : member ∈ members := by
  have hfold : ∀ found, member ∈ members.foldl
      (fun found member => setMember member.1 member.2 found) found →
      member ∈ members ∨ member ∈ found := by
    clear hmem
    induction members with
    | nil => exact fun found hfound => .inr hfound
    | cons head rest ih =>
      intro found hfound
      rcases ih _ hfound with hrest | hset
      · exact .inl (List.mem_cons_of_mem head hrest)
      · rcases mem_setMember hset with rfl | hold
        · exact .inl List.mem_cons_self
        · exact .inr hold
  exact (hfold [] hmem).resolve_right List.not_mem_nil

end Maps

section Redacted

variable {secret : Text → Bool} {numbers : NumberFormat}

theorem decodeMembers_cons {name : Text} {value : JsonValue} {rest found : List Member} :
    decodeMembers numbers ((name, value) :: rest) = some found ↔
      ∃ decoded members, decodeValue numbers value = some decoded ∧
        decodeMembers numbers rest = some members ∧ found = (name, decoded) :: members := by
  simp only [decodeMembers, Option.bind_eq_bind, Option.bind_eq_some_iff,
    Option.pure_def, Option.some.injEq]
  constructor
  · rintro ⟨decoded, hvalue, members, hrest, rfl⟩
    exact ⟨decoded, members, hvalue, hrest, rfl⟩
  · rintro ⟨decoded, members, hvalue, hrest, rfl⟩
    exact ⟨decoded, hvalue, members, hrest, rfl⟩

theorem decodeItems_cons {item : JsonValue} {rest found : List JsonValue} :
    decodeItems numbers (item :: rest) = some found ↔
      ∃ value values, decodeValue numbers item = some value ∧
        decodeItems numbers rest = some values ∧ found = value :: values := by
  simp only [decodeItems, Option.bind_eq_bind, Option.bind_eq_some_iff,
    Option.pure_def, Option.some.injEq]
  constructor
  · rintro ⟨value, hitem, values, hrest, rfl⟩
    exact ⟨value, values, hitem, hrest, rfl⟩
  · rintro ⟨value, values, hitem, hrest, rfl⟩
    exact ⟨value, hitem, values, hrest, rfl⟩

mutual

/-- Documents that match are the same once they are decoded and redacted. -/
theorem Matches.redactValue_eq {left right first second : JsonValue}
    (hmatches : Matches secret left right) (hleft : decodeValue numbers left = some first)
    (hright : decodeValue numbers right = some second) :
    redactValue secret first = redactValue secret second := by
  cases hmatches with
  | same =>
    rw [hleft] at hright
    cases hright
    rfl
  | array hitems =>
    obtain ⟨_, hfirst, rfl⟩ := Option.map_eq_some_iff.mp hleft
    obtain ⟨_, hsecond, rfl⟩ := Option.map_eq_some_iff.mp hright
    rw [redactValue, redactValue, hitems.redactItems_eq hfirst hsecond]
  | object hmembers =>
    obtain ⟨_, hfirst, rfl⟩ := Option.map_eq_some_iff.mp hleft
    obtain ⟨_, hsecond, rfl⟩ := Option.map_eq_some_iff.mp hright
    rw [redactValue, redactValue, redactMembers_mapOf, redactMembers_mapOf,
      hmembers.redactMembers_eq hfirst hsecond]

theorem MatchingItems.redactItems_eq {left right first second : List JsonValue}
    (hmatch : MatchingItems secret left right) (hleft : decodeItems numbers left = some first)
    (hright : decodeItems numbers right = some second) :
    redactItems secret first = redactItems secret second := by
  cases hmatch with
  | nil =>
    cases hleft
    cases hright
    rfl
  | cons hitem hrest =>
    obtain ⟨_, _, hfirst, hfirsts, rfl⟩ := decodeItems_cons.mp hleft
    obtain ⟨_, _, hsecond, hseconds, rfl⟩ := decodeItems_cons.mp hright
    rw [redactItems, redactItems, hitem.redactValue_eq hfirst hsecond,
      hrest.redactItems_eq hfirsts hseconds]

theorem MatchingMembers.redactMembers_eq {left right first second : List Member}
    (hmatch : MatchingMembers secret left right) (hleft : decodeMembers numbers left = some first)
    (hright : decodeMembers numbers right = some second) :
    redactMembers secret first = redactMembers secret second := by
  cases hmatch with
  | nil =>
    cases hleft
    cases hright
    rfl
  | secret _ _ hsecret hrest =>
    obtain ⟨_, _, -, hfirsts, rfl⟩ := decodeMembers_cons.mp hleft
    obtain ⟨_, _, -, hseconds, rfl⟩ := decodeMembers_cons.mp hright
    rw [redactMembers, redactMembers, if_pos hsecret, if_pos hsecret,
      hrest.redactMembers_eq hfirsts hseconds]
  | plain name hvalue hrest =>
    obtain ⟨_, _, hfirst, hfirsts, rfl⟩ := decodeMembers_cons.mp hleft
    obtain ⟨_, _, hsecond, hseconds, rfl⟩ := decodeMembers_cons.mp hright
    rw [redactMembers, redactMembers, hvalue.redactValue_eq hfirst hsecond,
      hrest.redactMembers_eq hfirsts hseconds]

end

theorem membersDepth_le {members : List Member} {limit : Nat} :
    membersDepth members ≤ limit ↔ ∀ member ∈ members, member.2.depth ≤ limit := by
  induction members with
  | nil => simp [membersDepth]
  | cons member rest ih => simp [membersDepth, ih]

theorem decodeMembers_isSome {members : List Member} :
    (decodeMembers numbers members).isSome = true ↔
      ∀ member ∈ members, (decodeValue numbers member.2).isSome = true := by
  induction members with
  | nil => simp [decodeMembers]
  | cons member rest ih =>
    obtain ⟨name, value⟩ := member
    rw [List.forall_mem_cons, ← ih, Option.isSome_iff_exists,
      Option.isSome_iff_exists, Option.isSome_iff_exists]
    constructor
    · rintro ⟨found, hfound⟩
      obtain ⟨decoded, others, hvalue, hrest, -⟩ := decodeMembers_cons.mp hfound
      exact ⟨⟨decoded, hvalue⟩, others, hrest⟩
    · rintro ⟨⟨decoded, hvalue⟩, others, hrest⟩
      exact ⟨_, decodeMembers_cons.mpr ⟨decoded, others, hvalue, hrest, rfl⟩⟩

/-- What the decoder accepts, again. -/
def Decodes (numbers : NumberFormat) (limit : Nat) (document : JsonValue) : Prop :=
  document.depth ≤ limit ∧ (decodeValue numbers document).isSome = true

mutual

/-- A decoded and redacted document decodes, and is not nested more deeply. -/
theorem decodes_redactValue {document value : JsonValue}
    (hdecode : decodeValue numbers document = some value) :
    Decodes numbers document.depth (redactValue secret value) := by
  cases document with
  | null | bool | string =>
    cases hdecode
    exact ⟨le_rfl, rfl⟩
  | number literal =>
    obtain ⟨text, htext, rfl⟩ := Option.map_eq_some_iff.mp hdecode
    refine ⟨le_rfl, ?_⟩
    rw [redactValue, decodeValue, Option.isSome_map]
    exact numbers.stable literal text htext
  | array items =>
    obtain ⟨values, hitems, rfl⟩ := Option.map_eq_some_iff.mp hdecode
    obtain ⟨hdepth, hsome⟩ := decodes_redactItems hitems
    refine ⟨?_, ?_⟩
    · rw [redactValue, JsonValue.depth, JsonValue.depth]
      omega
    · rw [redactValue, decodeValue, Option.isSome_map]
      exact hsome
  | object members =>
    obtain ⟨found, hmembers, rfl⟩ := Option.map_eq_some_iff.mp hdecode
    have hfound := decodes_redactMembers hmembers
    have hmap : ∀ member ∈ redactMembers secret (mapOf found),
        Decodes numbers (membersDepth members) member.2 := by
      intro member hmember
      rw [redactMembers_mapOf] at hmember
      exact hfound member (mem_mapOf hmember)
    refine ⟨?_, ?_⟩
    · rw [redactValue, JsonValue.depth, JsonValue.depth]
      have hdepth := membersDepth_le.mpr fun member hmember => (hmap member hmember).1
      omega
    · rw [redactValue, decodeValue, Option.isSome_map]
      exact decodeMembers_isSome.mpr fun member hmember => (hmap member hmember).2

theorem decodes_redactItems {items values : List JsonValue}
    (hdecode : decodeItems numbers items = some values) :
    itemsDepth (redactItems secret values) ≤ itemsDepth items ∧
      (decodeItems numbers (redactItems secret values)).isSome = true := by
  cases items with
  | nil =>
    cases hdecode
    exact ⟨le_rfl, rfl⟩
  | cons item rest =>
    obtain ⟨value, others, hvalue, hothers, rfl⟩ := decodeItems_cons.mp hdecode
    obtain ⟨hdepth, hsome⟩ := decodes_redactValue hvalue
    obtain ⟨hdepths, hsomes⟩ := decodes_redactItems hothers
    obtain ⟨again, hagain⟩ := Option.isSome_iff_exists.mp hsome
    obtain ⟨agains, hagains⟩ := Option.isSome_iff_exists.mp hsomes
    refine ⟨?_, ?_⟩
    · rw [redactItems, itemsDepth, itemsDepth]
      exact max_le_max hdepth hdepths
    · rw [redactItems, decodeItems_cons.mpr ⟨again, agains, hagain, hagains, rfl⟩]
      rfl

theorem decodes_redactMembers {members found : List Member}
    (hdecode : decodeMembers numbers members = some found) :
    ∀ member ∈ redactMembers secret found, Decodes numbers (membersDepth members) member.2 := by
  cases members with
  | nil =>
    cases hdecode
    exact fun _ hmember => absurd hmember List.not_mem_nil
  | cons head rest =>
    obtain ⟨name, value⟩ := head
    obtain ⟨decoded, others, hvalue, hothers, rfl⟩ := decodeMembers_cons.mp hdecode
    intro member hmember
    rw [redactMembers, List.mem_cons] at hmember
    rw [membersDepth]
    rcases hmember with rfl | hmember
    · dsimp only
      split
      · exact ⟨Nat.zero_le _, rfl⟩
      · obtain ⟨hdepth, hsome⟩ := decodes_redactValue hvalue
        exact ⟨hdepth.trans (le_max_left _ _), hsome⟩
    · obtain ⟨hdepth, hsome⟩ := decodes_redactMembers hothers member hmember
      exact ⟨hdepth.trans (le_max_right _ _), hsome⟩

end
end Redacted

section Blind

variable {site : AuditSite} {left right : JsonValue}

/-- The decoder accepts the document. -/
def AuditSite.Readable (site : AuditSite) (document : JsonValue) : Prop :=
  (unmarshal site.numbers document).isSome = true

/-- The encoder tells apart two documents and what is left of them. -/
def AuditSite.Distinguishes (site : AuditSite) (left right : JsonValue) : Prop :=
  Set.InjOn marshal {left, right, site.redact left, site.redact right}

theorem AuditSite.redact_unreadable (hunreadable : ¬ site.Readable left) :
    site.redact left = left := by
  rw [Readable, Option.not_isSome_iff_eq_none] at hunreadable
  rw [redact, hunreadable]

theorem AuditSite.readable_redact (hreadable : site.Readable left) :
    site.Readable (site.redact left) := by
  obtain ⟨value, hvalue⟩ := Option.isSome_iff_exists.mp hreadable
  have hdecode := hvalue
  rw [unmarshal] at hdecode
  split at hdecode
  · next hdepth =>
      have hagain : Decodes site.numbers left.depth (redactValue site.secret value) :=
        decodes_redactValue hdecode
      obtain ⟨hless, hsome⟩ := hagain
      rw [Readable, redact, hvalue, unmarshal, if_pos (hless.trans hdepth)]
      exact hsome
  · cases hdecode

theorem Matches.redact_eq (hmatches : Matches site.secret left right)
    (hleft : site.Readable left) (hright : site.Readable right) :
    site.redact left = site.redact right := by
  obtain ⟨first, hfirst⟩ := Option.isSome_iff_exists.mp hleft
  obtain ⟨second, hsecond⟩ := Option.isSome_iff_exists.mp hright
  rw [AuditSite.redact, AuditSite.redact, hfirst, hsecond]
  rw [unmarshal] at hfirst hsecond
  split at hfirst
  · split at hsecond
    · exact hmatches.redactValue_eq hfirst hsecond
    · cases hsecond
  · cases hfirst

/-- A document that is not redacted differs from every one that is. -/
theorem AuditSite.redact_ne (hleft : ¬ site.Readable left)
    (hright : site.Readable right) : site.redact left ≠ site.redact right := by
  intro heq
  rw [redact_unreadable hleft] at heq
  exact hleft (heq ▸ readable_redact hright)

theorem Matches.redacted_iff (hmatches : Matches site.secret left right)
    (hdistinct : site.Distinguishes left right) :
    marshal (site.redact left) = marshal (site.redact right) ↔
      left = right ∨ site.Readable left ∧ site.Readable right := by
  constructor
  · intro hmarshal
    have heq : site.redact left = site.redact right := hdistinct (by simp) (by simp) hmarshal
    by_cases hleft : site.Readable left
    · by_cases hright : site.Readable right
      · exact .inr ⟨hleft, hright⟩
      · exact absurd heq.symm (AuditSite.redact_ne hright hleft)
    · by_cases hright : site.Readable right
      · exact absurd heq (AuditSite.redact_ne hleft hright)
      · rw [AuditSite.redact_unreadable hleft, AuditSite.redact_unreadable hright] at heq
        exact .inl heq
  · rintro (rfl | ⟨hleft, hright⟩)
    · rfl
    · rw [hmatches.redact_eq hleft hright]

theorem nullString_inj {first second : Text} :
    nullString first = nullString second ↔ first = second := by
  unfold nullString
  split
  · next hfirst =>
      split
      · next hsecond => simp [hfirst, hsecond]
      · next hsecond => simp [hfirst, Ne.symm hsecond]
  · next hfirst =>
      split
      · next hsecond => simp [hsecond, hfirst]
      · simp

theorem Matches.stored_iff (hmatches : Matches site.secret left right)
    (hdistinct : site.Distinguishes left right) :
    nullString (dataOf left) = nullString (dataOf right) ↔ left = right := by
  rw [nullString_inj]
  refine ⟨fun hdata => ?_, fun heq => by rw [heq]⟩
  cases hmatches with
  | same => rfl
  | array => exact hdistinct (by simp) (by simp) hdata
  | object => exact hdistinct (by simp) (by simp) hdata

/-- The columns of the documents in the row that a statement inserts. -/
def AuditStatement.persisted (site : AuditSite) (entry : AuditEntry)
    (statement : AuditStatement) (documents : Documents) : Option (Option Text × Option Text) :=
  (statement.row site entry documents).map fun row =>
    (row.beforeRedactedJSON, row.afterRedactedJSON)

theorem AuditStatement.persisted_scim (entry : AuditEntry) (request : ScimRequest)
    (before after : ResourceRow) (documents : Documents) :
    (AuditStatement.scim request before after).persisted site entry documents =
      if (AuditStatement.scim request before after).writes then
        some (nullString (dataOf documents.before), nullString (dataOf documents.after))
      else none := by
  simp only [persisted, row, writes, AuditSite.writeScim]
  by_cases hidentity : request.identity.isNone
  · simp [Except.toOption, Option.isNone_iff_eq_none.mp hidentity]
  · by_cases hactor : request.actor.type ≠ ascii "scim_client" ∨ request.actor.id = []
    · have hrefused : (request.actor.type == ascii "scim_client" &&
          request.actor.id != []) = false := by
        rcases hactor with htype | hid <;> simp [*]
      simp [hidentity, hactor, hrefused, Except.toOption]
    · have haccepted := not_or.mp hactor
      simp [hidentity, Except.toOption, AuditSite.rowOf, ResourceRow.storing,
        not_not.mp haccepted.1, haccepted.2, Option.isSome_iff_ne_none,
        Option.isNone_iff_eq_none.not.mp hidentity]

/-- The documents are the same, or the statement redacts both of them. -/
def AuditStatement.Covers (site : AuditSite) (statement : AuditStatement)
    (left right : JsonValue) : Prop :=
  left = right ∨ statement.redacts = true ∧ site.Readable left ∧ site.Readable right

end Blind

/-- The log shows the same for documents that differ in secrets only, exactly when the
statement writes no row, or redacts the documents and the decoder accepts them. -/
theorem audit_blind_iff (site : AuditSite) (entry : AuditEntry)
    (statement : AuditStatement) (left right : Documents)
    (hbefore : Matches site.secret left.before right.before)
    (hafter : Matches site.secret left.after right.after)
    (hbefores : site.Distinguishes left.before right.before)
    (hafters : site.Distinguishes left.after right.after) :
    statement.persisted site entry left = statement.persisted site entry right ↔
      (statement.writes = true → statement.Covers site left.before right.before ∧
        statement.Covers site left.after right.after) := by
  cases statement with
  | event | retention =>
    have hredacted := and_congr (hbefore.redacted_iff hbefores) (hafter.redacted_iff hafters)
    simpa [AuditStatement.persisted, AuditStatement.row, AuditSite.writeSQL,
      AuditSite.writeRetention, AuditSite.rowOf, AuditSite.normalize, AuditStatement.writes,
      AuditStatement.Covers, AuditStatement.redacts] using hredacted
  | scim request before after =>
    rw [AuditStatement.persisted_scim, AuditStatement.persisted_scim]
    split
    · next hwrites =>
      have hstored := and_congr (hbefore.stored_iff hbefores) (hafter.stored_iff hafters)
      simpa [hwrites, AuditStatement.Covers, AuditStatement.redacts] using hstored
    · next hsilent => exact iff_of_true rfl fun hwrites => absurd hwrites hsilent

/-- Every literal is in range as it stands, but for one. -/
def plainNumbers : NumberFormat where
  convert literal := if literal = ascii "1e999" then none else some literal
  stable := by
    intro literal text htext
    split at htext
    · cases htext
    · next hrange =>
        cases htext
        rw [if_neg hrange]
        rfl

def plainAudit : AuditSite := ⟨asciiPlatform, plainNumbers, ascii "id", 1⟩

def plainEntry : AuditEntry where
  id := []
  time := 0
  actor := ⟨ascii "scim_client", ascii "client"⟩
  source := none
  action := ascii "scim.user.create"
  resource := ⟨ascii "identity", ascii "u1"⟩
  before := .null
  after := .null
  correlationID := []
  result := ascii "success"
  errorCode := []

def tokenMembers (token number : String) : Document :=
  [(ascii "apiToken", .string (ascii token)), (ascii "count", .number (ascii number)),
    (ascii "displayName", .string (ascii "staff"))]

def tokenDocument (token number : String) : JsonValue := .object (tokenMembers token number)

def tokenCreated (token number : String) : Documents := ⟨.null, tokenDocument token number⟩

/-- A group before its document is stored in it. -/
def plainGroup : ScimRecord := { plainUser "g1" "staff" "" "1" with resourceType := groupType }

def tokenGroup (token number : String) : ScimRecord :=
  { plainGroup with
    toResourceRow := plainGroup.toResourceRow.storing (tokenDocument token number) }

/-- A store that decodes two documents. -/
def tokenScim : ScimSite :=
  { plainScim with
    decodeDocument := fun data =>
      match [tokenMembers "a" "1", tokenMembers "b" "1"].find? fun members =>
          marshal (.object members) == data with
      | some members => .ok members
      | none => .error .sql }

/-- A group as the statement that logs its creation by a SCIM client. -/
def groupCreated : AuditStatement := .scim plainClient
  { plainGroup.toResourceRow with id := [] } plainGroup.toResourceRow

theorem tokenDocument_matches (number : String) :
    Matches plainAudit.secret (tokenDocument "a" number) (tokenDocument "b" number) :=
  .object (.secret _ _ (by decide) (.plain _ (.same _) (.plain _ (.same _) .nil)))

theorem plainAudit_distinguishes :
    plainAudit.Distinguishes (tokenDocument "a" "1") (tokenDocument "b" "1") := by
  intro first hfirst second hsecond heq
  simp only [Set.mem_insert_iff, Set.mem_singleton_iff] at hfirst hsecond
  rcases hfirst with rfl | rfl | rfl | rfl <;>
    rcases hsecond with rfl | rfl | rfl | rfl <;>
      first | rfl | exact absurd heq (by decide)

theorem audit_blind_token :
    AuditStatement.event.persisted plainAudit plainEntry (tokenCreated "a" "1") =
      AuditStatement.event.persisted plainAudit plainEntry (tokenCreated "b" "1") := by
  have hnull : plainAudit.Distinguishes .null .null := by
    intro first hfirst second hsecond _
    simp only [Set.mem_insert_iff, Set.mem_singleton_iff] at hfirst hsecond
    rcases hfirst with rfl | rfl | rfl | rfl <;>
      rcases hsecond with rfl | rfl | rfl | rfl <;> rfl
  refine (audit_blind_iff plainAudit plainEntry .event (tokenCreated "a" "1")
    (tokenCreated "b" "1") (.same _) (tokenDocument_matches "1") hnull
    plainAudit_distinguishes).mpr fun _ => ⟨.inl rfl, .inr ⟨rfl, Eq.refl true, Eq.refl true⟩⟩

/-- A store accepts a group with either of two tokens, and logs the token; a number out of
range keeps a document from being redacted. -/
theorem token_logged :
    (∀ token ∈ ["a", "b"], (tokenScim.create plainClient (tokenGroup token "1")
      (ScimSite.begin none Directory.empty)).1.isOk = true) ∧
    Matches plainAudit.secret (tokenDocument "a" "1") (tokenDocument "b" "1") ∧
    groupCreated.persisted plainAudit plainEntry (tokenCreated "a" "1") ≠
      groupCreated.persisted plainAudit plainEntry (tokenCreated "b" "1") ∧
    Matches plainAudit.secret (tokenDocument "a" "1e999") (tokenDocument "b" "1e999") ∧
    AuditStatement.event.persisted plainAudit plainEntry (tokenCreated "a" "1e999") ≠
      AuditStatement.event.persisted plainAudit plainEntry (tokenCreated "b" "1e999") := by
  refine ⟨?_, tokenDocument_matches "1", by decide, tokenDocument_matches "1e999", by decide⟩
  decide

end GotthMail
