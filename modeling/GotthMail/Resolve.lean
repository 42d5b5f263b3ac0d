/-
The domains that govern a queue file.  Each source names a mailbox, an alias
or a system sender; policy reads the domain of that object as it is now, and a
source that is missing or disabled is an error.
-/
import GotthMail.Database

namespace GotthMail

open Bytes Relational

/-- What the three kinds of source objects have in common. -/
structure SourceObject where
  enabled : Bool
  domainID : Uuid
deriving DecidableEq

namespace Database

variable (db : Database)

def mailboxObject (id : Text) : Option SourceObject :=
  (db.mailboxes.rows.find? fun row => row.id.text = id).map fun row => ⟨row.enabled, row.domainID⟩

def aliasObject (id : Text) : Option SourceObject :=
  (db.aliases.rows.find? fun row => row.id.text = id).map fun row => ⟨row.enabled, row.domainID⟩

def systemSenderObject (id : Text) : Option SourceObject :=
  (db.systemSenders.find? id).map fun row => ⟨row.enabled, row.domainID⟩

def sourceObject (source : QueueSource) : Option SourceObject :=
  match source.kind with
  | .authenticatedMailbox | .envelopeSender => db.mailboxObject source.objectID
  | .alias | .forward | .list | .catchAll => db.aliasObject source.objectID
  | .systemSender => db.systemSenderObject source.objectID
  | .other _ => none

/-- The domain row of a source, when the source and the domain are enabled and
the revision is positive. -/
def governingRow (source : QueueSource) : Option DomainRow := do
  let object ← db.sourceObject source
  let row ← db.domains.find? object.domainID
  if object.enabled && row.enabled && decide (0 < row.revision) then some row
  else none

end Database

namespace Platform

variable (p : Platform) (db : Database)

def resolveSource (source : QueueSource) : Except Error GoverningDomain := do
  let row ← require (db.governingRow source) "outbound policy source is missing or disabled"
  check (decide (p.normalizeDomain row.name = .ok row.name) &&
      validScope row.scope) "outbound policy source state is invalid"
  return ⟨row.name, row.scope, row.revision.toNat⟩

def resolvePolicySources (sources : List QueueSource) :
    Except Error (List GoverningDomain) := do
  check (decide (0 < sources.length ∧ sources.length ≤ maxQueueSources))
    "invalid outbound policy sources"
  check (sources.all QueueSource.valid) "invalid outbound policy source"
  let governing ← sources.mapM (p.resolveSource db)
  check (governing.length == sources.length) "outbound policy source resolution was incomplete"
  return governing

/-- A source resolves to the domain of an enabled object, and that domain is
enabled and canonical. -/
structure Governs (source : QueueSource) (governing : GoverningDomain) :
    Prop where
  object : ∃ object, db.sourceObject source = some object ∧
    object.enabled = true ∧ ∃ row, db.domains.find? object.domainID = some row ∧
      row.enabled = true ∧ 0 < row.revision ∧ governing = ⟨row.name, row.scope, row.revision.toNat⟩
  canonical : p.normalizeDomain governing.domain = .ok governing.domain
  scope : validScope governing.scope = true

end Platform

variable {p : Platform} {db : Database} {source : QueueSource}

theorem governingRow_eq_some_iff {row : DomainRow} :
    db.governingRow source = some row ↔
      ∃ object, db.sourceObject source = some object ∧ object.enabled = true ∧
        db.domains.find? object.domainID = some row ∧ row.enabled = true ∧ 0 < row.revision := by
  simp only [Database.governingRow, Option.bind_eq_bind, Option.bind_eq_some_iff]
  constructor
  · rintro ⟨object, hobject, found, hfound, hchecks⟩
    split at hchecks
    · next hall =>
        cases hchecks
        simp only [Bool.and_eq_true, decide_eq_true_eq] at hall
        exact ⟨object, hobject, hall.1.1, hfound, hall.1.2, hall.2⟩
    · cases hchecks
  · rintro ⟨object, hobject, henabled, hfound, hrow, hrevision⟩
    exact ⟨object, hobject, row, hfound, by simp [henabled, hrow, hrevision]⟩

theorem resolveSource_ok_iff {governing : GoverningDomain} :
    p.resolveSource db source = .ok governing ↔
      p.Governs db source governing := by
  simp only [Platform.resolveSource, bind_ok_iff, require_ok_iff,
    check_ok_iff, pure_ok_iff, Bool.and_eq_true, decide_eq_true_eq, governingRow_eq_some_iff]
  constructor
  · rintro ⟨row, ⟨object, hobject, henabled, hfound, hrow, hrevision⟩, _, ⟨hname, hscope⟩, rfl⟩
    exact ⟨⟨object, hobject, henabled, row, hfound, hrow, hrevision, rfl⟩, hname, hscope⟩
  · rintro ⟨⟨object, hobject, henabled, row, hfound, hrow, hrevision, rfl⟩, hname, hscope⟩
    exact ⟨row, ⟨object, hobject, henabled, hfound, hrow, hrevision⟩, (), ⟨hname, hscope⟩, rfl⟩

/-- Sources resolve together exactly when each of them resolves. -/
theorem resolvePolicySources_ok_iff {sources : List QueueSource}
    {governing : List GoverningDomain} :
    p.resolvePolicySources db sources = .ok governing ↔
      (0 < sources.length ∧ sources.length ≤ maxQueueSources) ∧
        (∀ source ∈ sources, source.valid = true) ∧
        List.Forall₂ (p.Governs db) sources governing := by
  simp only [Platform.resolvePolicySources, bind_ok_iff, check_ok_iff,
    pure_ok_iff, decide_eq_true_eq, List.all_eq_true, mapM_ok_iff_forall₂,
    resolveSource_ok_iff, beq_iff_eq]
  constructor
  · rintro ⟨_, hbounds, _, hvalid, found, hfound, _, _, rfl⟩
    exact ⟨hbounds, hvalid, hfound⟩
  · rintro ⟨hbounds, hvalid, hfound⟩
    exact ⟨(), hbounds, (), hvalid, governing, hfound, (), hfound.length_eq.symm, rfl⟩

end GotthMail
