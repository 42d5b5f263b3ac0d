/-
What an import changes in the database.  The writes of a run are followed table
by table: which places they may have changed, and what stands at the places they
have written.
-/
import GotthMail.ImportTables

namespace GotthMail

open Bytes Ranges Relational Effect

variable {tables next base : MailTables} {now : Time} {site : ImportSite}
  {refuses : ImportStep → Bool} {asked : List Text} {tx after : ImportTx}

def Names (domains : DomainEntries) (id name : Text) : Prop :=
  ∃ row ∈ domains.rows, row.id = id ∧ row.name = name

theorem Names.name_eq {domains : DomainEntries} {id first second : Text}
    (hfirst : Names domains id first) (hsecond : Names domains id second) :
    first = second := by
  obtain ⟨row, hrow, hid, rfl⟩ := hfirst
  obtain ⟨found, hfound, hsame, rfl⟩ := hsecond
  rw [domains.eq_of_key_eq hrow hfound (hid.trans hsame.symm)]

theorem Names.id_eq {domains : DomainEntries} {first second name : Text}
    (hfirst : Names domains first name) (hsecond : Names domains second name) :
    first = second := by
  obtain ⟨row, hrow, rfl, hname⟩ := hfirst
  obtain ⟨found, hfound, rfl, hsame⟩ := hsecond
  rw [List.inj_on_of_nodup_map (of_decide_eq_true domains.constraint) hrow hfound
    (hname.trans hsame.symm)]

namespace MailTables

/-- A domain row that an import at that time leaves as it is. -/
def Settled (now : Time) (tables : MailTables) (name : Text) : Prop :=
  ∃ row ∈ tables.domains.rows, row.name = name ∧ row.enabled = true ∧ row.updatedAt = now

variable {id other name : Text}

theorem domain_eq_of_name {first second : DomainEntry}
    (hfirst : first ∈ tables.domains.rows) (hsecond : second ∈ tables.domains.rows)
    (hname : first.name = second.name) : first = second :=
  List.inj_on_of_nodup_map (of_decide_eq_true tables.domains.constraint) hfirst hsecond hname

theorem upsertDomain_eq_some (hupsert : tables.upsertDomain id now name = some next) :
    ∃ domains : DomainEntries, tables.domains.upsert DomainEntry.name ⟨id, name, true, now, now⟩
        (fun row => { row with enabled := true, updatedAt := now }) (fun _ => rfl) =
          some domains ∧ next = { tables with domains := domains } := by
  obtain ⟨domains, hdomains, hnext⟩ := Option.bind_eq_some_iff.mp hupsert
  exact ⟨domains, hdomains, (Option.some.inj hnext).symm⟩

theorem upsertDomain_named (hupsert : tables.upsertDomain id now name = some next)
    {known label : Text} (hnamed : Names tables.domains known label) :
    Names next.domains known label := by
  obtain ⟨domains, hdomains, rfl⟩ := upsertDomain_eq_some hupsert
  obtain ⟨row, hrow, rfl, rfl⟩ := hnamed
  by_cases hname : row.name = name
  · exact ⟨_, (Constrained.mem_upsert_iff hdomains).mpr
      (.inr (.inl ⟨row, hrow, hname, rfl⟩)), rfl, rfl⟩
  · exact ⟨row, (Constrained.mem_upsert_iff hdomains).mpr (.inl ⟨hrow, hname⟩), rfl, rfl⟩

/-- The domain that a statement has asked for is enabled and up to date. -/
theorem upsertDomain_settled (hupsert : tables.upsertDomain id now name = some next) :
    next.Settled now name := by
  obtain ⟨domains, hdomains, rfl⟩ := upsertDomain_eq_some hupsert
  obtain ⟨row, hrow, rfl | ⟨old, -, hname, rfl⟩⟩ := Constrained.exists_upsert hdomains
  · exact ⟨_, hrow, rfl, rfl, rfl⟩
  · exact ⟨_, hrow, hname, rfl, rfl⟩

theorem upsertDomain_sameOutside (hupsert : tables.upsertDomain id now name = some next) :
    SameOutside DomainEntry.name (· = name) tables.domains.rows
      next.domains.rows := by
  obtain ⟨domains, hdomains, rfl⟩ := upsertDomain_eq_some hupsert
  exact Constrained.upsert_sameOutside hdomains fun _ => rfl

theorem upsertDomain_of_settled (hupsert : tables.upsertDomain id now name = some next)
    (hsettled : tables.Settled now name) (row : DomainEntry) :
    row ∈ tables.domains.rows ↔ row ∈ next.domains.rows := by
  obtain ⟨domains, hdomains, rfl⟩ := upsertDomain_eq_some hupsert
  obtain ⟨old, hold, rfl, henabled, rfl⟩ := hsettled
  apply Constrained.upsert_same hdomains hold rfl
  · intro found hfound hname
    exact domain_eq_of_name hfound hold hname
  · rw [← henabled]

theorem Settled.upsertDomain (hupsert : tables.upsertDomain id now name = some next)
    {label : Text} (hsettled : tables.Settled now label) :
    next.Settled now label := by
  by_cases hlabel : label = name
  · subst hlabel
    exact upsertDomain_settled hupsert
  · obtain ⟨row, hrow, rfl, hrest⟩ := hsettled
    exact ⟨row, (upsertDomain_sameOutside hupsert row hlabel).mp hrow, rfl, hrest⟩

end MailTables

/-- What a run has made of the domains: outside the names it has asked for, and
at those that were settled already, they are as before. -/
structure DomainProgress (now : Time) (base : MailTables) (asked : List Text)
    (tx : ImportTx) : Prop where
  frame : SameOutside DomainEntry.name
    (fun name => name ∈ asked ∧ ¬ base.Settled now name) base.domains.rows tx.tables.domains.rows
  settled : ∀ name ∈ asked, tx.tables.Settled now name
  known : ∀ name id, tx.domainIDs.lookup name = some id → name ∈ asked ∧
    Names tx.tables.domains id name

/-- The tables differ only in their domains, of which none is lost. -/
structure OnlyDomains (before after : MailTables) : Prop where
  named : ∀ id name, Names before.domains id name → Names after.domains id name
  mailboxes : after.mailboxes = before.mailboxes
  aliases : after.aliases = before.aliases
  relays : after.relays = before.relays

theorem OnlyDomains.refl (tables : MailTables) : OnlyDomains tables tables :=
  ⟨fun _ _ hnamed => hnamed, rfl, rfl, rfl⟩

section Domains

theorem DomainProgress.again {name : Text}
    (hprogress : DomainProgress now base asked tx) (hasked : name ∈ asked) :
    DomainProgress now base (asked ++ [name]) tx where
  frame := hprogress.frame.mono fun _ hplace => ⟨List.mem_append_left _ hplace.1, hplace.2⟩
  settled label hlabel := by
    rcases List.mem_append.mp hlabel with hlabel | hlabel
    · exact hprogress.settled label hlabel
    · exact hprogress.settled label (List.mem_singleton.mp hlabel ▸ hasked)
  known label id hlookup :=
    ⟨List.mem_append_left _ (hprogress.known label id hlookup).1,
      (hprogress.known label id hlookup).2⟩

theorem DomainProgress.upsert {id name : Text} {next : MailTables}
    (hprogress : DomainProgress now base asked tx)
    (hupsert : tx.tables.upsertDomain id now name = some next) :
    DomainProgress now base (asked ++ [name])
      { tx with tables := next, step := tx.step + 1 } where
  frame := by
    have hbefore : SameOutside DomainEntry.name
        (fun label => label ∈ asked ++ [name] ∧ ¬ base.Settled now label)
        base.domains.rows tx.tables.domains.rows :=
      hprogress.frame.mono fun label hlabel => ⟨List.mem_append_left _ hlabel.1, hlabel.2⟩
    apply hbefore.trans
    by_cases hsettled : base.Settled now name
    · have hthere : tx.tables.Settled now name := by
        obtain ⟨row, hrow, rfl, hrest⟩ := hsettled
        refine ⟨row, (hprogress.frame row ?_).mp hrow, rfl, hrest⟩
        exact fun hchanged => hchanged.2 ⟨row, hrow, rfl, hrest⟩
      exact fun row _ => MailTables.upsertDomain_of_settled hupsert hthere row
    · apply (MailTables.upsertDomain_sameOutside hupsert).mono
      rintro _ rfl
      exact ⟨List.mem_append_right _ List.mem_cons_self, hsettled⟩
  settled := by
    intro label hlabel
    rcases List.mem_append.mp hlabel with hlabel | hlabel
    · exact (hprogress.settled label hlabel).upsertDomain hupsert
    · rw [List.mem_singleton.mp hlabel]
      exact MailTables.upsertDomain_settled hupsert
  known := by
    intro label found hlookup
    obtain ⟨hlabel, hnamed⟩ := hprogress.known label found hlookup
    exact ⟨List.mem_append_left _ hlabel, MailTables.upsertDomain_named hupsert hnamed⟩

/-- A run asks for a domain once and then knows its identifier. -/
theorem ensureDomain_ok {domain id : Text} (hprogress : DomainProgress now base asked tx)
    (hensure : site.ensureDomain refuses now domain tx = (.ok id, after)) :
    DomainProgress now base (asked ++ [site.normalizeName domain]) after ∧
      OnlyDomains tx.tables after.tables ∧
      Names after.tables.domains id (site.normalizeName domain) := by
  simp only [ImportSite.ensureDomain, Effect.bind_ok_iff, ask_ok_iff, guard_ok_iff] at hensure
  obtain ⟨_, _, ⟨-, rfl⟩, known, _, ⟨hknown, rfl⟩, hrest⟩ := hensure
  cases hlookup : tx.domainIDs.lookup (site.normalizeName domain) with
  | some found =>
    rw [← hknown, hlookup] at hrest
    obtain ⟨rfl, rfl⟩ := hrest
    obtain ⟨hasked, hnamed⟩ := hprogress.known _ _ hlookup
    exact ⟨hprogress.again hasked, .refl _, hnamed⟩
  | none =>
    rw [← hknown, hlookup] at hrest
    simp only [Effect.bind_ok_iff, ask_ok_iff, need_ok_iff, alter_ok_iff,
      Effect.pure_ok_iff] at hrest
    obtain ⟨_, _, hexecute, _, _, ⟨rfl, rfl⟩, row, _, ⟨hfind, rfl⟩, _, _, rfl, rfl, rfl⟩ := hrest
    obtain ⟨next, hupsert, rfl⟩ := execute_ok hexecute
    have hrow : row ∈ next.domains.rows := List.mem_of_find?_eq_some hfind
    have hname : row.name = site.normalizeName domain := by
      simpa using List.find?_some hfind
    have hupdated := hprogress.upsert hupsert
    obtain ⟨domains, -, rfl⟩ := MailTables.upsertDomain_eq_some hupsert
    refine ⟨⟨hupdated.frame, hupdated.settled, ?_⟩, ⟨?_, rfl, rfl, rfl⟩, ⟨row, hrow, rfl, hname⟩⟩
    · intro label found hfound
      rw [lookup_insert_eq] at hfound
      split at hfound
      · next hlabel =>
          subst hlabel
          cases hfound
          exact ⟨List.mem_append_right _ List.mem_cons_self, row, hrow, rfl, hname⟩
      · exact hupdated.known label found hfound
    · exact fun _ _ hnamed => MailTables.upsertDomain_named hupsert hnamed

end Domains

/-- Where an address candidate goes, and what is written there. -/
structure Placement where
  domain : Text
  localPart : Text
  contents : Option Text

def Placement.At (placement : Placement) (domains : DomainEntries) (place : Text × Text) : Prop :=
  Names domains place.1 placement.domain ∧ place.2 = placement.localPart

def Placement.Stored (placement : Placement) (domains : DomainEntries)
    (rows : List AddressEntry) : Prop :=
  ∃ row ∈ rows, placement.At domains row.place ∧ row.enabled = true ∧
    row.contents = placement.contents

def ImportSite.contentsOf (site : ImportSite) (candidate : MailuCandidate) :
    Option Text :=
  if candidate.type = .alias then some (site.targetsJSON candidate)
  else nullString candidate.value

/-- The placement of a candidate of one of the two types with addresses. -/
def ImportSite.placement (site : ImportSite) (type : CandidateType)
    (candidate : MailuCandidate) : Option Placement :=
  if candidate.type = type then
    (splitAddress candidate.id).map fun parts =>
      ⟨site.normalizeName parts.2, parts.1, site.contentsOf candidate⟩
  else none

/-- What a run has made of a table of addresses.  A later placement may have
written over an earlier one in the same place. -/
structure AddressProgress (base : List AddressEntry) (placements : List Placement)
    (domains : DomainEntries) (rows : List AddressEntry) : Prop where
  frame : SameOutside AddressEntry.place
    (fun place => ∃ placement ∈ placements, placement.At domains place) base rows
  stored : ∀ placement ∈ placements, ∃ last ∈ placements,
    last.domain = placement.domain ∧ last.localPart = placement.localPart ∧ last.Stored domains rows

section Addresses

variable {base rows : List AddressEntry} {placements : List Placement} {placement : Placement}
  {after : MailTables}

theorem AddressProgress.empty (domains : DomainEntries) (rows : List AddressEntry) :
    AddressProgress rows [] domains rows :=
  ⟨SameOutside.refl _ _, nofun⟩

theorem Placement.At.named (honly : OnlyDomains tables after) {place : Text × Text}
    (hat : placement.At tables.domains place) : placement.At after.domains place :=
  ⟨honly.named _ _ hat.1, hat.2⟩

theorem AddressProgress.named (honly : OnlyDomains tables after)
    (hprogress : AddressProgress base placements tables.domains rows) :
    AddressProgress base placements after.domains rows where
  frame := hprogress.frame.mono fun _ ⟨placement, hplacement, hat⟩ =>
    ⟨placement, hplacement, hat.named honly⟩
  stored := by
    intro placement hplacement
    obtain ⟨last, hlast, hdomain, hlocal, row, hrow, hat, hrest⟩ :=
      hprogress.stored placement hplacement
    exact ⟨last, hlast, hdomain, hlocal, row, hrow, hat.named honly, hrest⟩

/-- One more row is written, over the row in its place if there is one. -/
theorem AddressProgress.upsert {domains : DomainEntries} {table next : AddressEntries}
    {row : AddressEntry} (hprogress : AddressProgress base placements domains table.rows)
    (hupsert : MailTables.upsertAddress row table = some next)
    (hat : placement.At domains row.place) (henabled : row.enabled = true)
    (hcontents : row.contents = placement.contents) :
    AddressProgress base (placements ++ [placement]) domains next.rows := by
  unfold MailTables.upsertAddress at hupsert
  split at hupsert
  case isFalse => cases hupsert
  have hnew : placement.Stored domains next.rows := by
    obtain ⟨found, hfound, rfl | ⟨old, -, hplace, rfl⟩⟩ := Constrained.exists_upsert hupsert
    · exact ⟨found, hfound, hat, henabled, hcontents⟩
    · exact ⟨_, hfound, hplace ▸ hat, henabled, hcontents⟩
  constructor
  · have hbefore : SameOutside AddressEntry.place
        (fun place => ∃ found ∈ placements ++ [placement], found.At domains place)
        base table.rows :=
      hprogress.frame.mono fun _ ⟨found, hfound, hthere⟩ =>
        ⟨found, List.mem_append_left _ hfound, hthere⟩
    apply hbefore.trans
    apply (Constrained.upsert_sameOutside hupsert fun _ => rfl).mono
    rintro _ rfl
    exact ⟨placement, List.mem_append_right _ List.mem_cons_self, hat⟩
  · intro found hfound
    rcases List.mem_append.mp hfound with hfound | hfound
    · obtain ⟨last, hlast, hdomain, hlocal, old, hold, hthere, hrest⟩ :=
        hprogress.stored found hfound
      by_cases hplace : old.place = row.place
      · -- The old row has been written over, so both placements have one place.
        rw [hplace] at hthere
        refine ⟨placement, List.mem_append_right _ List.mem_cons_self, ?_, ?_, hnew⟩
        · exact (hat.1.name_eq hthere.1).trans hdomain
        · exact hat.2.symm.trans (hthere.2.trans hlocal)
      · exact ⟨last, List.mem_append_left _ hlast, hdomain, hlocal, old,
          (Constrained.mem_upsert_iff hupsert).mpr (.inl ⟨hold, hplace⟩), hthere, hrest⟩
    · rw [List.mem_singleton] at hfound
      subst hfound
      exact ⟨found, List.mem_append_right _ List.mem_cons_self, rfl, rfl, hnew⟩

end Addresses

/-- The relays that a run has written. -/
structure RelayProgress (base : List RelayEntry) (routes : List (Text × Text))
    (rows : List RelayEntry) : Prop where
  frame : SameOutside RelayEntry.route (· ∈ routes) base rows
  stored : ∀ route ∈ routes, ∃ row ∈ rows, row.route = route ∧ row.enabled = true

theorem RelayProgress.replace {base : List RelayEntry} {routes : List (Text × Text)}
    {name target id : Text} {tables cleared next : MailTables}
    (hprogress : RelayProgress base routes tables.relays.rows)
    (hdelete : tables.deleteRelays name target = some cleared)
    (hinsert : cleared.insertRelay id now name target = some next) :
    RelayProgress base (routes ++ [(name, target)]) next.relays.rows := by
  unfold MailTables.deleteRelays at hdelete
  split at hdelete
  case isFalse => cases hdelete
  cases hdelete
  obtain ⟨relays, hrelays, hnext⟩ := Option.bind_eq_some_iff.mp hinsert
  cases hnext
  have hrows := (Table.insert_eq_some_iff.mp hrelays).2
  have hmem : ∀ row, row ∈ relays.rows ↔ row ∈ tables.relays.rows ∧ row.route ≠ (name, target) ∨
        row = ⟨id, none, name, target, true, now, now⟩ := by
    intro row
    rw [hrows, List.mem_append, List.mem_singleton, Table.keep, List.mem_filter, decide_eq_true_eq]
  have hnew : ∃ row ∈ relays.rows, row.route = (name, target) ∧ row.enabled = true :=
    ⟨_, (hmem _).mpr (.inr rfl), rfl, rfl⟩
  constructor
  · intro row hrow
    simp only [List.mem_append, List.mem_singleton, not_or] at hrow
    rw [hprogress.frame row hrow.1, hmem]
    constructor
    · intro hold
      exact .inl ⟨hold, hrow.2⟩
    · rintro (⟨hold, -⟩ | rfl)
      · exact hold
      · exact absurd rfl hrow.2
  · intro route hroute
    by_cases hsame : route = (name, target)
    · rw [hsame]
      exact hnew
    · rw [List.mem_append, List.mem_singleton, or_iff_left hsame] at hroute
      obtain ⟨row, hrow, rfl, henabled⟩ := hprogress.stored route hroute
      exact ⟨row, (hmem row).mpr (.inl ⟨hrow, hsame⟩), rfl, henabled⟩

def ImportSite.domainName? (site : ImportSite) (candidate : MailuCandidate) :
    Option Text :=
  if candidate.type = .domain then some (site.normalizeName candidate.id) else none

/-- The name that an address candidate asks for. -/
def ImportSite.addressDomain? (site : ImportSite) (candidate : MailuCandidate) :
    Option Text :=
  ((site.placement .user candidate).or (site.placement .alias candidate)).map Placement.domain

/-- What a relay candidate writes, unless its value is blank. -/
def relayRoute? (candidate : MailuCandidate) : Option (Text × Text) :=
  if candidate.type = .relay ∧ trimSpace candidate.value ≠ [] then
    some (candidate.id, candidate.value)
  else none

/-- A run that has asked for some domains and has written some addresses and
relays. -/
structure RunProgress (now : Time) (base : MailTables) (asked : List Text)
    (mailboxes aliases : List Placement) (routes : List (Text × Text))
    (tx : ImportTx) : Prop where
  domains : DomainProgress now base asked tx
  mailboxes : AddressProgress base.mailboxes.rows mailboxes
    tx.tables.domains tx.tables.mailboxes.rows
  aliases : AddressProgress base.aliases.rows aliases tx.tables.domains tx.tables.aliases.rows
  relays : RelayProgress base.relays.rows routes tx.tables.relays.rows

section Run

variable {mailboxes aliases : List Placement} {routes : List (Text × Text)}
  {candidate : MailuCandidate}

theorem RunProgress.start (now : Time) (base : MailTables) :
    RunProgress now base [] [] [] [] ⟨base, ∅, 0⟩ where
  domains := ⟨SameOutside.refl _ _, nofun, nofun⟩
  mailboxes := .empty _ _
  aliases := .empty _ _
  relays := ⟨SameOutside.refl _ _, nofun⟩

variable (hprogress : RunProgress now base asked mailboxes aliases routes tx)

include hprogress

variable {domain id : Text}

theorem RunProgress.ensureDomain
    (hensure : site.ensureDomain refuses now domain tx = (.ok id, after)) :
    RunProgress now base (asked ++ [site.normalizeName domain]) mailboxes aliases routes after ∧
      Names after.tables.domains id (site.normalizeName domain) := by
  obtain ⟨hdomains, honly, hnamed⟩ := ensureDomain_ok hprogress.domains hensure
  refine ⟨⟨hdomains, ?_, ?_, ?_⟩, hnamed⟩
  · rw [honly.mailboxes]
    exact hprogress.mailboxes.named honly
  · rw [honly.aliases]
    exact hprogress.aliases.named honly
  · rw [honly.relays]
    exact hprogress.relays

theorem RunProgress.importDomain
    (himport : site.importDomain refuses now candidate tx = (.ok (), after)) :
    RunProgress now base (asked ++ (site.domainName? candidate).toList) mailboxes
      aliases routes after := by
  unfold ImportSite.importDomain at himport
  unfold ImportSite.domainName?
  split at himport
  · next htype =>
      simp only [Effect.bind_ok_iff, Effect.pure_ok_iff] at himport
      obtain ⟨_, _, hensure, -, rfl⟩ := himport
      rw [if_pos htype]
      exact (hprogress.ensureDomain hensure).1
  · next htype =>
      obtain ⟨-, rfl⟩ := himport
      rw [if_neg htype]
      simpa using hprogress

/-- A run in which one more candidate has been taken up; an address candidate
had an address. -/
def RunProgress.Taken (site : ImportSite) (now : Time) (base : MailTables)
    (asked : List Text) (mailboxes aliases : List Placement)
    (routes : List (Text × Text)) (candidate : MailuCandidate) (after : ImportTx) :
    Prop :=
  (∀ type, type = .user ∨ type = .alias → candidate.type = type →
    (site.placement type candidate).isSome = true) ∧
  RunProgress now base (asked ++ (site.addressDomain? candidate).toList)
    (mailboxes ++ (site.placement .user candidate).toList)
    (aliases ++ (site.placement .alias candidate).toList)
    (routes ++ (relayRoute? candidate).toList) after

theorem RunProgress.importAddress (htype : candidate.type = .user ∨ candidate.type = .alias)
    (himport : site.importCandidate refuses now candidate tx = (.ok (), after)) :
    Taken site now base asked mailboxes aliases routes candidate after := by
  rcases htype with htype | htype
  all_goals
    simp only [ImportSite.importCandidate, htype, Effect.bind_ok_iff, need_ok_iff] at himport
    obtain ⟨⟨localPart, domain⟩, _, ⟨hsplit, rfl⟩, domainID, middle, hensure, hexecute⟩ := himport
    obtain ⟨tables, hupsert, rfl⟩ := execute_ok hexecute
    obtain ⟨hmiddle, hnamed⟩ := hprogress.ensureDomain hensure
    refine ⟨by rintro type - rfl; simp [ImportSite.placement, htype, hsplit], ?_⟩
    simp only [ImportSite.addressDomain?, ImportSite.placement, relayRoute?,
      ImportSite.contentsOf, htype, hsplit, if_true, if_false, reduceCtorEq, false_and,
      Option.map_some, Option.toList_some, Option.toList_none, List.append_nil,
      Option.some_or, Option.none_or]
  all_goals
    obtain ⟨rows, hrows, hnext⟩ := Option.bind_eq_some_iff.mp hupsert
    cases hnext
    have hdomains := hmiddle.domains
  · have hmailboxes := @AddressProgress.upsert _ _ ⟨_, _, _⟩ _ _ _ _ hmiddle.mailboxes hrows
      ⟨hnamed, rfl⟩ rfl rfl
    exact ⟨⟨hdomains.frame, hdomains.settled, hdomains.known⟩, hmailboxes, hmiddle.aliases,
      hmiddle.relays⟩
  · have haliases := @AddressProgress.upsert _ _ ⟨_, _, _⟩ _ _ _ _ hmiddle.aliases hrows
      ⟨hnamed, rfl⟩ rfl rfl
    exact ⟨⟨hdomains.frame, hdomains.settled, hdomains.known⟩, hmiddle.mailboxes, haliases,
      hmiddle.relays⟩

omit hprogress in
/-- A candidate without an address asks for no domain. -/
theorem RunProgress.taken_of_relays (huser : candidate.type ≠ .user)
    (halias : candidate.type ≠ .alias) (hprogress : RunProgress now base asked mailboxes aliases
      (routes ++ (relayRoute? candidate).toList) after) :
    Taken site now base asked mailboxes aliases routes candidate after := by
  constructor
  · rintro type (rfl | rfl) htype
    · exact absurd htype huser
    · exact absurd htype halias
  · have hnone : site.placement .user candidate = none := by
      simp [ImportSite.placement, huser]
    have hnone' : site.placement .alias candidate = none := by
      simp [ImportSite.placement, halias]
    simpa [ImportSite.addressDomain?, hnone, hnone'] using hprogress

theorem RunProgress.importRelay (htype : candidate.type = .relay)
    (himport : site.importCandidate refuses now candidate tx = (.ok (), after)) :
    Taken site now base asked mailboxes aliases routes candidate after := by
  apply taken_of_relays (by simp [htype]) (by simp [htype])
  simp only [ImportSite.importCandidate, htype] at himport
  split at himport
  · next hblank =>
      obtain ⟨-, rfl⟩ := himport
      simpa [relayRoute?, hblank] using hprogress
  · next hblank =>
      simp only [Effect.bind_ok_iff] at himport
      obtain ⟨_, middle, hdelete, hinsert⟩ := himport
      obtain ⟨cleared, hcleared, rfl⟩ := execute_ok hdelete
      obtain ⟨next, hnext, rfl⟩ := execute_ok hinsert
      have hroute : relayRoute? candidate = some (candidate.id, candidate.value) := by
        simp [relayRoute?, htype, hblank]
      rw [hroute]
      have hrelays := hprogress.relays.replace hcleared hnext
      unfold MailTables.deleteRelays at hcleared
      split at hcleared
      case isFalse => cases hcleared
      cases hcleared
      obtain ⟨rows, -, hnext⟩ := Option.bind_eq_some_iff.mp hnext
      cases hnext
      exact ⟨⟨hprogress.domains.frame, hprogress.domains.settled,
        hprogress.domains.known⟩, hprogress.mailboxes, hprogress.aliases, hrelays⟩

theorem RunProgress.importCandidate
    (himport : site.importCandidate refuses now candidate tx = (.ok (), after)) :
    Taken site now base asked mailboxes aliases routes candidate after := by
  by_cases huser : candidate.type = .user
  · exact hprogress.importAddress (.inl huser) himport
  by_cases halias : candidate.type = .alias
  · exact hprogress.importAddress (.inr halias) himport
  by_cases hrelay : candidate.type = .relay
  · exact hprogress.importRelay hrelay himport
  -- Domains were taken up before, and no statement belongs to the other types.
  have hroute : relayRoute? candidate = none := by simp [relayRoute?, hrelay]
  apply taken_of_relays huser halias
  have hidle : site.importCandidate refuses now candidate = pure () := by
    unfold ImportSite.importCandidate
    cases htype : candidate.type <;> simp_all
  rw [hidle, Effect.pure_ok_iff] at himport
  obtain ⟨-, rfl⟩ := himport
  simpa [hroute] using hprogress

omit hprogress

theorem filterMap_concat {α β : Type} (choose : α → Option β) (done : List α) (item : α) :
    (done ++ [item]).filterMap choose = done.filterMap choose ++ (choose item).toList := by
  cases hitem : choose item <;> simp [hitem]

/-- A run that has taken up every candidate of a list. -/
structure ImportRun (site : ImportSite) (now : Time) (base : MailTables)
    (candidates : List MailuCandidate) (after : MailTables) : Prop where
  placed : ∀ candidate ∈ candidates, ∀ type, type = .user ∨ type = .alias →
    candidate.type = type → (site.placement type candidate).isSome = true
  frame : SameOutside DomainEntry.name (fun name => name ∈ candidates.filterMap site.domainName? ++
        candidates.filterMap site.addressDomain? ∧ ¬ base.Settled now name)
    base.domains.rows after.domains.rows
  settled : ∀ name ∈ candidates.filterMap site.domainName? ++
    candidates.filterMap site.addressDomain?, after.Settled now name
  mailboxes : AddressProgress base.mailboxes.rows
    (candidates.filterMap (site.placement .user)) after.domains after.mailboxes.rows
  aliases : AddressProgress base.aliases.rows
    (candidates.filterMap (site.placement .alias)) after.domains after.aliases.rows
  relays : RelayProgress base.relays.rows (candidates.filterMap relayRoute?) after.relays.rows

/-- The first loop asks for the domains of the domain candidates. -/
theorem importDomains_triple (candidates : List MailuCandidate) :
    (candidates.forM (site.importDomain refuses now)).Triple (RunProgress now base [] [] [] [])
      (fun _ => RunProgress now base (candidates.filterMap site.domainName?) [] [] [])
      fun _ => True := by
  have hround : ∀ done, ∀ candidate ∈ candidates, (site.importDomain refuses now candidate).Triple
        (RunProgress now base (done.filterMap site.domainName?) [] [] [])
        (fun _ => RunProgress now base ((done ++ [candidate]).filterMap site.domainName?) [] [] [])
        fun _ => True := by
    intro done candidate _
    apply Triple.of_returned
    intro tx _ after hprogress hreturned
    rw [filterMap_concat]
    exact hprogress.importDomain hreturned
  exact Triple.forM_done hround []

/-- The second loop after some of its rounds. -/
def AfterRounds (site : ImportSite) (now : Time) (base : MailTables)
    (asked : List Text) (done : List MailuCandidate) (tx : ImportTx) : Prop :=
  (∀ candidate ∈ done, ∀ type, type = .user ∨ type = .alias →
    candidate.type = type → (site.placement type candidate).isSome = true) ∧
  RunProgress now base (asked ++ done.filterMap site.addressDomain?)
    (done.filterMap (site.placement .user)) (done.filterMap (site.placement .alias))
    (done.filterMap relayRoute?) tx

/-- The second loop writes the addresses and relays. -/
theorem importCandidates_triple (candidates : List MailuCandidate) :
    (candidates.forM (site.importCandidate refuses now)).Triple
      (RunProgress now base asked [] [] [])
      (fun _ => AfterRounds site now base asked candidates) fun _ => True := by
  have hround : ∀ done, ∀ candidate ∈ candidates,
      (site.importCandidate refuses now candidate).Triple (AfterRounds site now base asked done)
        (fun _ => AfterRounds site now base asked (done ++ [candidate])) fun _ => True := by
    intro done candidate _
    apply Triple.of_returned
    rintro tx _ after ⟨hplaced, hprogress⟩ hreturned
    obtain ⟨hcandidate, htaken⟩ := hprogress.importCandidate hreturned
    simp only [AfterRounds, filterMap_concat, ← List.append_assoc]
    refine ⟨?_, htaken⟩
    intro found hfound
    rcases List.mem_append.mp hfound with hfound | hfound
    · exact hplaced found hfound
    · rw [List.mem_singleton.mp hfound]
      exact hcandidate
  refine (Triple.forM_done hround []).consequence ?_ (fun _ _ hrun => hrun) fun _ _ => trivial
  intro tx hprogress
  exact ⟨nofun, by simpa using hprogress⟩

theorem importTables_run {preview : ImportPreview}
    (himport : site.importTables refuses now preview base = .ok next) :
    ImportRun site now base preview.live next := by
  have hrun : (site.importAll refuses now preview).Triple
      (RunProgress now base [] [] [] []) _ fun _ => True :=
    Triple.bind (importDomains_triple preview.live) fun _ => importCandidates_triple preview.live
  unfold ImportSite.importTables at himport
  split at himport
  · next tx hall =>
      cases himport
      obtain ⟨hplaced, hprogress⟩ := hrun.returned (.start now base) hall
      exact ⟨hplaced, hprogress.domains.frame, hprogress.domains.settled,
        hprogress.mailboxes, hprogress.aliases, hprogress.relays⟩
  · cases himport

end Run

/-- A candidate is in the tables with the contents of the preview; there is no
table for the keys of domains or for tokens. -/
def ImportSite.StoredIn (site : ImportSite) (tables : MailTables)
    (candidate : MailuCandidate) : Prop :=
  match candidate.type with
  | .domain => ∃ row ∈ tables.domains.rows,
      row.name = site.normalizeName candidate.id ∧ row.enabled = true
  | .user => ∃ placement, site.placement .user candidate = some placement ∧
      placement.Stored tables.domains tables.mailboxes.rows
  | .alias => ∃ placement, site.placement .alias candidate = some placement ∧
      placement.Stored tables.domains tables.aliases.rows
  | .relay => ∃ row ∈ tables.relays.rows,
      row.route = (candidate.id, candidate.value) ∧ row.enabled = true
  | _ => False

/-- The imported candidates are stored, and every row that none of them names is
as it was. -/
structure ImportSite.ImportExact (site : ImportSite) (imported : List MailuCandidate)
    (base after : MailTables) : Prop where
  stored : ∀ candidate ∈ imported, site.StoredIn after candidate
  domains : SameOutside DomainEntry.name
    (fun name => ∃ candidate ∈ imported, site.domainName? candidate = some name)
    base.domains.rows after.domains.rows
  mailboxes : SameOutside AddressEntry.place (fun place => ∃ candidate ∈ imported, ∃ placement,
      site.placement .user candidate = some placement ∧ placement.At after.domains place)
    base.mailboxes.rows after.mailboxes.rows
  aliases : SameOutside AddressEntry.place (fun place => ∃ candidate ∈ imported, ∃ placement,
      site.placement .alias candidate = some placement ∧ placement.At after.domains place)
    base.aliases.rows after.aliases.rows
  relays : SameOutside RelayEntry.name
    (fun name => ∃ candidate ∈ imported, candidate.type = .relay ∧ candidate.id = name)
    base.relays.rows after.relays.rows

/-- A candidate for which an import has no statement. -/
def Unwritten (candidate : MailuCandidate) : Prop :=
  candidate.type ∉ [.domain, .user, .alias] ∧ relayRoute? candidate = none

/-- Candidates of an import that does what its preview says. -/
structure ImportSite.ImportClean (site : ImportSite) (now : Time)
    (imported : List MailuCandidate) (base : MailTables) : Prop where
  written : ∀ candidate ∈ imported, Unwritten candidate → site.StoredIn base candidate
  consistent : ∀ type, type = .user ∨ type = .alias →
    ∀ first ∈ imported.filterMap (site.placement type),
    ∀ second ∈ imported.filterMap (site.placement type),
    first.domain = second.domain → first.localPart = second.localPart →
      first.contents = second.contents
  domains : ∀ name ∈ imported.filterMap site.addressDomain?,
    (∃ candidate ∈ imported, site.domainName? candidate = some name) ∨ base.Settled now name

section Exactness

variable {after : MailTables} {imported : List MailuCandidate}

/-- Rows with blank targets are never written. -/
theorem ImportRun.blank_mem_iff (hrun : ImportRun site now base imported after)
    {row : RelayEntry} (hblank : trimSpace row.target = []) :
    row ∈ base.relays.rows ↔ row ∈ after.relays.rows := by
  apply hrun.relays.frame
  intro hroute
  obtain ⟨candidate, -, hcandidate⟩ := List.mem_filterMap.mp hroute
  unfold relayRoute? at hcandidate
  split at hcandidate
  · next hwritten =>
      have htarget : candidate.value = row.target := congrArg Prod.snd (Option.some.inj hcandidate)
      exact hwritten.2 (htarget ▸ hblank)
  · cases hcandidate

theorem Unwritten.storedIn_iff (hrun : ImportRun site now base imported after)
    {candidate : MailuCandidate} (hunwritten : Unwritten candidate) :
    site.StoredIn base candidate ↔ site.StoredIn after candidate := by
  obtain ⟨htype, hroute⟩ := hunwritten
  unfold ImportSite.StoredIn
  cases hcase : candidate.type <;> simp only [hcase, List.mem_cons, reduceCtorEq,
    or_false, or_true, not_true_eq_false, List.not_mem_nil] at htype ⊢
  have hblank : trimSpace candidate.value = [] := by
    simpa [relayRoute?, hcase] using hroute
  refine exists_congr fun row => and_congr_left fun ⟨hsame, _⟩ => ?_
  have htarget : row.target = candidate.value := congrArg Prod.snd hsame
  exact hrun.blank_mem_iff (htarget ▸ hblank)

/-- All placements in one place ask for the same contents exactly when each is
stored. -/
theorem AddressProgress.stored_iff {rows : List AddressEntry}
    {placements : List Placement} {domains : DomainEntries} {table : AddressEntries}
    (hprogress : AddressProgress rows placements domains table.rows) :
    (∀ placement ∈ placements, placement.Stored domains table.rows) ↔
      ∀ first ∈ placements, ∀ second ∈ placements, first.domain = second.domain →
        first.localPart = second.localPart → first.contents = second.contents := by
  constructor
  · intro hstored first hfirst second hsecond hdomain hlocal
    obtain ⟨row, hrow, hat, -, hcontents⟩ := hstored first hfirst
    obtain ⟨found, hfound, hthere, -, hsame⟩ := hstored second hsecond
    have hplace : row.place = found.place :=
      Prod.ext (hat.1.id_eq (hdomain ▸ hthere.1)) (hat.2.trans (hlocal.trans hthere.2.symm))
    have heq : row = found :=
      List.inj_on_of_nodup_map (of_decide_eq_true table.constraint) hrow hfound hplace
    rw [← hcontents, heq, hsame]
  · intro hconsistent placement hplacement
    obtain ⟨last, hlast, hdomain, hlocal, row, hrow, hat, henabled, hcontents⟩ :=
      hprogress.stored placement hplacement
    refine ⟨row, hrow, ⟨hdomain ▸ hat.1, hat.2.trans hlocal⟩, henabled, ?_⟩
    exact hcontents.trans (hconsistent last hlast placement hplacement hdomain hlocal)

/-- Every address candidate of a type is stored when all placements are. -/
theorem ImportRun.placements_iff (hrun : ImportRun site now base imported after)
    {type : CandidateType} (htype : type = .user ∨ type = .alias) (rows : List AddressEntry) :
    (∀ candidate ∈ imported, candidate.type = type →
        ∃ placement, site.placement type candidate = some placement ∧
          placement.Stored after.domains rows) ↔
      ∀ placement ∈ imported.filterMap (site.placement type),
        placement.Stored after.domains rows := by
  constructor
  · intro hstored placement hplacement
    obtain ⟨candidate, hcandidate, hplaced⟩ := List.mem_filterMap.mp hplacement
    have hcase : candidate.type = type := by
      by_contra hne
      simp [ImportSite.placement, hne] at hplaced
    obtain ⟨found, hfound, hthere⟩ := hstored candidate hcandidate hcase
    rw [hplaced] at hfound
    cases hfound
    exact hthere
  · intro hstored candidate hcandidate hcase
    obtain ⟨placement, hplaced⟩ :=
      Option.isSome_iff_exists.mp (hrun.placed candidate hcandidate type htype hcase)
    exact ⟨placement, hplaced,
      hstored placement (List.mem_filterMap.mpr ⟨candidate, hcandidate, hplaced⟩)⟩

/-- The candidates are all stored exactly when those without a statement were,
and no two in one place differ. -/
theorem ImportRun.stored_iff (hrun : ImportRun site now base imported after) :
    (∀ candidate ∈ imported, site.StoredIn after candidate) ↔
      (∀ candidate ∈ imported, Unwritten candidate → site.StoredIn base candidate) ∧
      ∀ type, type = .user ∨ type = .alias → ∀ first ∈ imported.filterMap (site.placement type),
        ∀ second ∈ imported.filterMap (site.placement type),
        first.domain = second.domain → first.localPart = second.localPart →
          first.contents = second.contents := by
  constructor
  · intro hstored
    refine ⟨fun candidate hcandidate hunwritten =>
      (hunwritten.storedIn_iff hrun).mpr (hstored candidate hcandidate), ?_⟩
    rintro type (rfl | rfl)
    · refine hrun.mailboxes.stored_iff.mp ((hrun.placements_iff (.inl rfl) _).mp ?_)
      intro candidate hcandidate hcase
      simpa [ImportSite.StoredIn, hcase] using hstored candidate hcandidate
    · refine hrun.aliases.stored_iff.mp ((hrun.placements_iff (.inr rfl) _).mp ?_)
      intro candidate hcandidate hcase
      simpa [ImportSite.StoredIn, hcase] using hstored candidate hcandidate
  · rintro ⟨hwritten, hconsistent⟩ candidate hcandidate
    by_cases hunwritten : Unwritten candidate
    · exact (hunwritten.storedIn_iff hrun).mp (hwritten candidate hcandidate hunwritten)
    have husers := (hrun.placements_iff (.inl rfl) _).mpr
      (hrun.mailboxes.stored_iff.mpr (hconsistent .user (.inl rfl)))
    have haliases := (hrun.placements_iff (.inr rfl) _).mpr
      (hrun.aliases.stored_iff.mpr (hconsistent .alias (.inr rfl)))
    unfold ImportSite.StoredIn
    split
    · next hcase =>
        obtain ⟨row, hrow, hname, henabled, -⟩ :=
          hrun.settled (site.normalizeName candidate.id)
            (List.mem_append_left _ (List.mem_filterMap.mpr
              ⟨candidate, hcandidate, by simp [ImportSite.domainName?, hcase]⟩))
        exact ⟨row, hrow, hname, henabled⟩
    · next hcase => exact husers candidate hcandidate hcase
    · next hcase => exact haliases candidate hcandidate hcase
    · next hcase =>
        have hvalue : trimSpace candidate.value ≠ [] := by
          intro hblank
          exact hunwritten ⟨by simp [hcase], by simp [relayRoute?, hblank]⟩
        apply hrun.relays.stored
        exact List.mem_filterMap.mpr ⟨candidate, hcandidate, by simp [relayRoute?, hcase, hvalue]⟩
    · next hdomain huser halias hrelay =>
        refine hunwritten ⟨?_, ?_⟩
        · simp only [List.mem_cons, List.not_mem_nil, or_false, not_or]
          exact ⟨hdomain, huser, halias⟩
        · unfold relayRoute?
          exact if_neg fun hrelayed => hrelay hrelayed.1

/-- The domains outside the imported ones are as they were exactly when every
domain that an address candidate asks for is imported or was settled. -/
theorem ImportRun.domains_iff (hrun : ImportRun site now base imported after) :
    SameOutside DomainEntry.name
        (fun name => ∃ candidate ∈ imported, site.domainName? candidate = some name)
        base.domains.rows after.domains.rows ↔
      ∀ name ∈ imported.filterMap site.addressDomain?,
        (∃ candidate ∈ imported, site.domainName? candidate = some name) ∨
          base.Settled now name := by
  constructor
  · intro hsame name hname
    by_cases himported : ∃ candidate ∈ imported, site.domainName? candidate = some name
    · exact .inl himported
    · obtain ⟨row, hrow, rfl, hrest⟩ := hrun.settled name (List.mem_append_right _ hname)
      exact .inr ⟨row, (hsame row himported).mpr hrow, rfl, hrest⟩
  · intro hdomains
    apply hrun.frame.mono
    rintro name ⟨hasked, hunsettled⟩
    rcases List.mem_append.mp hasked with hasked | hasked
    · exact List.mem_filterMap.mp hasked
    · exact (hdomains name hasked).resolve_right hunsettled

theorem ImportRun.exact_iff (hrun : ImportRun site now base imported after) :
    site.ImportExact imported base after ↔ site.ImportClean now imported base := by
  constructor
  · intro hexact
    obtain ⟨hwritten, hconsistent⟩ := hrun.stored_iff.mp hexact.stored
    exact ⟨hwritten, hconsistent, hrun.domains_iff.mp hexact.domains⟩
  · intro hclean
    refine ⟨hrun.stored_iff.mpr ⟨hclean.written, hclean.consistent⟩,
      hrun.domains_iff.mpr hclean.domains, ?_, ?_, ?_⟩
    · apply hrun.mailboxes.frame.mono
      rintro place ⟨placement, hplacement, hat⟩
      obtain ⟨candidate, hcandidate, hplaced⟩ := List.mem_filterMap.mp hplacement
      exact ⟨candidate, hcandidate, placement, hplaced, hat⟩
    · apply hrun.aliases.frame.mono
      rintro place ⟨placement, hplacement, hat⟩
      obtain ⟨candidate, hcandidate, hplaced⟩ := List.mem_filterMap.mp hplacement
      exact ⟨candidate, hcandidate, placement, hplaced, hat⟩
    · intro row hrow
      apply hrun.relays.frame
      intro hroute
      obtain ⟨candidate, hcandidate, hwritten⟩ := List.mem_filterMap.mp hroute
      unfold relayRoute? at hwritten
      split at hwritten
      · next hrelay =>
          exact hrow ⟨candidate, hcandidate, hrelay.1, congrArg Prod.fst (Option.some.inj hwritten)⟩
      · cases hwritten

end Exactness

def ImportSite.imported (site : ImportSite) (preview : ImportPreview) :
    List MailuCandidate :=
  preview.candidates.filter fun candidate => (site.assess candidate).1 = .imported

/-- A status that a branch does not give comes from the branches after it. -/
theorem status_of_rest {condition : Prop} [Decidable condition]
    {first rest : ImportStatus × String} {status : ImportStatus}
    (hstatus : (if condition then first else rest).1 = status)
    (hfirst : first.1 ≠ status) : rest.1 = status := by
  split at hstatus
  · exact absurd hstatus hfirst
  · exact hstatus

/-- Only a candidate that passes every other check is imported or skipped, and
then its revocation decides. -/
theorem ImportSite.assess_admissible {candidate : MailuCandidate}
    (hadmissible : (site.assess candidate).1 = .imported ∨ (site.assess candidate).1 = .skipped) :
    (site.assess candidate).1 = .imported ↔ candidate.revoked = false := by
  have hdecided : (site.assess candidate).1 =
      if candidate.revoked then .skipped else .imported := by
    rcases hadmissible with hstatus | hstatus
    all_goals
      rw [hstatus]
      unfold ImportSite.assess at hstatus
      iterate 14 replace hstatus := status_of_rest hstatus (by decide)
      split at hstatus <;> simp_all
  rw [hdecided]
  cases candidate.revoked <;> simp

/-- An accepted preview imports what is not revoked. -/
theorem imported_eq_live {source : Text} {actor : ActorRef} {previewedAt : Time}
    {confirmation : ImportConfirmation}
    (hvalid : validateImportPreviewForApply (site.preview source actor previewedAt)
      confirmation now = .ok ()) :
    site.imported (site.preview source actor previewedAt) =
      (site.preview source actor previewedAt).live := by
  unfold validateImportPreviewForApply at hvalid
  split_ifs at hvalid with _ _ _ _ hitems
  rw [List.all_eq_true] at hitems
  apply List.filter_congr
  intro candidate hcandidate
  have hitem := hitems (site.itemOf candidate) (List.mem_map_of_mem hcandidate)
  simp only [Bool.or_eq_true, beq_iff_eq, ImportSite.itemOf] at hitem
  have hrevoked := ImportSite.assess_admissible hitem
  cases hcase : candidate.revoked <;> simp [hrevoked, hcase]

theorem admitSQL_ok {refuses : ImportStep → Bool} {previews : ImportStore}
    {confirmation : ImportConfirmation} {tables next : MailTables} {preview : ImportPreview}
    (haccept : site.admitSQL refuses now previews confirmation tables = .ok (preview, next)) :
    previews.previews.lookup confirmation.id = some preview ∧
      validateImportPreviewForApply preview confirmation now = .ok () ∧
      site.importTables refuses (site.round now) preview tables = .ok next := by
  simp only [ImportSite.admitSQL, except_bind_ok_iff] at haccept
  obtain ⟨found, hfound, _, hvalid, _, -, _, -, _, -, after, hafter, _, -, hreturn⟩ := haccept
  cases hreturn
  refine ⟨?_, hvalid, hafter⟩
  unfold ImportStore.find at hfound
  split at hfound
  · cases hfound
  · next hlookup =>
      cases hfound
      exact hlookup

/-- The domain that a candidate asks for is stored as an import at that time leaves it,
and so is the relay. -/
def ImportSite.Current (site : ImportSite) (now : Time) (tables : MailTables)
    (candidate : MailuCandidate) : Prop :=
  (∀ name, site.domainName? candidate = some name ∨ site.addressDomain? candidate = some name →
    tables.Settled now name) ∧
  ∀ route, relayRoute? candidate = some route →
    ∃ row ∈ tables.relays.rows, row.route = route ∧ row.enabled = true

theorem ImportRun.current {imported : List MailuCandidate} {candidate : MailuCandidate}
    (hrun : ImportRun site now base imported base) (hcandidate : candidate ∈ imported) :
    site.Current now base candidate := by
  constructor
  · rintro name (hname | hname) <;> apply hrun.settled <;> rw [List.mem_append]
    · exact .inl (List.mem_filterMap.mpr ⟨_, hcandidate, hname⟩)
    · exact .inr (List.mem_filterMap.mpr ⟨_, hcandidate, hname⟩)
  · intro route hroute
    exact hrun.relays.stored route (List.mem_filterMap.mpr ⟨_, hcandidate, hroute⟩)

/-- A failed application leaves the stored state as it was exactly when it has
admitted nothing or what it has written was there already, down to the time of its
domains; a successful one has written one event, which reports success. -/
theorem import_atomic_iff (site : ImportSite) (writer : AuditWriter)
    (refuses : ImportStep → Bool) (confirmation : ImportConfirmation) (now : Time)
    (base : Daemon) (previews : ImportStore) (memory memory' : ImportMemory)
    (world world' : ImportWorld) (result result' : Except Text Unit)
    (hmemory : ImportStore.apply site writer confirmation now base memory = (result, memory'))
    (hworld : site.applySQL refuses now previews confirmation world = (result', world')) :
    (∀ reason, result = .error reason → (memory'.store.SameEntries memory.store ↔ ∀ preview service,
          memory.store.admitMemory site confirmation now base = .ok (preview, service) →
          (memory.store.writeAll service preview).SameEntries memory.store)) ∧
    (∀ reason, result' = .error reason → (world'.tables = world.tables ↔ ∀ preview next,
          site.admitSQL refuses now previews confirmation world.tables =
            .ok (preview, next) → next = world.tables)) ∧
    (∀ preview, site.admitSQL refuses now previews confirmation world.tables =
        .ok (preview, world.tables) →
      ∀ candidate ∈ preview.live, site.Current (site.round now) world.tables candidate) ∧
    (result = .ok () → ∃ preview, memory'.events =
      memory.events ++ [importEntry confirmation.actor preview]) ∧
    (result' = .ok () → ∃ preview, world'.events =
      world.events ++ [importEntry confirmation.actor preview]) := by
  refine ⟨?_, ?_, ?_, ?_, ?_⟩
  · rintro reason rfl
    rcases (ImportStore.apply_outcome memory).failed rfl hmemory with
      ⟨⟨_, hrefused⟩, rfl⟩ | ⟨preview, service, hadmitted, hwritten⟩
    · simp [hrefused, ImportStore.SameEntries.refl]
    · simp [hadmitted, hwritten]
  · rintro reason rfl
    rcases (ImportSite.applySQL_outcome world).failed rfl hworld with
      ⟨⟨_, hrefused⟩, rfl⟩ | ⟨preview, next, hadmitted, hcommitted⟩
    · simp [hrefused]
    · simp [hadmitted, hcommitted]
  · intro preview hadmitted candidate
    exact (importTables_run (admitSQL_ok hadmitted).2.2).current
  · rintro rfl
    exact (ImportStore.apply_outcome memory).returned rfl hmemory
  · rintro rfl
    obtain ⟨preview, next, -, rfl⟩ := (ImportSite.applySQL_outcome world).returned rfl hworld
    exact ⟨preview, rfl⟩

theorem import_atomic_accepted :
    ((∃ preview, (plainApplied true).2.events = [importEntry plainActor preview]) ∧
        ∃ preview, (plainAppliedSQL fun _ => false).2.events = [importEntry plainActor preview]) ∧
      (plainAppliedSQL (· == .statement 1)).2.tables = .empty := by
  have hatomic (refuses : ImportStep → Bool) := import_atomic_iff plainImport ⟨true⟩ refuses
    plainConfirmation 0 Daemon.fresh plainPreviews ⟨plainPreviews, []⟩ (plainApplied true).2
    ⟨.empty, []⟩ (plainAppliedSQL refuses).2 (plainApplied true).1 (plainAppliedSQL refuses).1
    Prod.mk.eta.symm Prod.mk.eta.symm
  constructor
  · obtain ⟨-, -, -, hmemory, hworld⟩ := hatomic fun _ => false
    exact ⟨hmemory (by decide +kernel), hworld (by decide +kernel)⟩
  · -- the statement for the mailbox is refused after the one for its domain
    obtain ⟨-, hrefused, -⟩ := hatomic (· == .statement 1)
    have hnone : (plainImport.admitSQL (· == .statement 1) 0 plainPreviews plainConfirmation
      .empty).isOk = false := by decide +kernel
    refine (hrefused (ascii "sql") (by decide +kernel)).mpr fun preview next hadmitted => ?_
    rw [show plainImport.admitSQL _ _ _ _ _ = _ from hadmitted] at hnone
    cases hnone

/-- The event is refused after the maps are written, and the state cannot be
loaded again after the commit; both applications fail and their writes stay. -/
theorem import_half_applied :
    (plainApplied false).1 = .error (ascii "audit") ∧
      (plainApplied false).2.store.mailboxes.lookup (ascii "a@x.test") =
        some ⟨ascii "a@x.test", true, ascii "v"⟩ ∧
      (plainAppliedSQL (· == .reload)).1 = .error (ascii "sql") ∧
      (plainAppliedSQL (· == .reload)).2.tables.mailboxes.rows =
        [⟨ascii "1", ascii "0", ascii "a", true, some (ascii "v"), 0, 0⟩] := by
  decide +kernel

/-- An import that succeeds has changed what its preview announced, and nothing
else, exactly when every candidate has a statement, no two candidates differ about
one address, and no address candidate asks for a domain that is not itself
imported. -/
theorem import_exact_iff (site : ImportSite) (refuses : ImportStep → Bool)
    (previews : ImportStore) (confirmation : ImportConfirmation) (source : Text)
    (actor : ActorRef) (previewedAt now : Time) (world after : ImportWorld)
    (hpreview : previews.previews.lookup confirmation.id =
      some (site.preview source actor previewedAt))
    (happly : site.applySQL refuses now previews confirmation world = (.ok (), after)) :
    let imported := site.imported (site.preview source actor previewedAt)
    site.ImportExact imported world.tables after.tables ↔
      site.ImportClean (site.round now) imported world.tables := by
  obtain ⟨preview, next, haccept, rfl⟩ := (ImportSite.applySQL_outcome world).returned rfl happly
  obtain ⟨hlookup, hvalid, himport⟩ := admitSQL_ok haccept
  rw [hpreview] at hlookup
  cases hlookup
  intro imported
  rw [show imported = _ from imported_eq_live hvalid]
  exact (importTables_run himport).exact_iff

/-- The preview of a source, in a store of its own. -/
def ImportSite.announced (site : ImportSite) : ImportStore :=
  { newImportStore with
    previews := (∅ : Mapping Text ImportPreview).insert
      (site.preview [] plainActor 0).id (site.preview [] plainActor 0) }

/-- The confirmation of that preview by its own actor. -/
def ImportSite.confirmed (site : ImportSite) : ImportConfirmation :=
  ⟨plainActor, (site.preview [] plainActor 0).id, (site.preview [] plainActor 0).hash,
    (site.preview [] plainActor 0).sourceFingerprint⟩

/-- The preview applied at once, with nothing refused. -/
def ImportSite.applied (site : ImportSite) (tables : MailTables) : Except Text Unit × ImportWorld :=
  site.applySQL (fun _ => false) 0 site.announced site.confirmed ⟨tables, []⟩

theorem plainImport_clean :
    plainImport.ImportClean 0 (plainImport.imported (plainImport.preview [] plainActor 0))
      .empty := by
  have himported : plainImport.imported (plainImport.preview [] plainActor 0) =
      [.plain .domain (ascii "x.test") [], .plain .user (ascii "a@x.test") (ascii "v")] := by decide
  rw [himported]
  refine ⟨?_, ?_, ?_⟩
  · intro candidate hcandidate hunwritten
    simp only [List.mem_cons, List.not_mem_nil, or_false] at hcandidate
    rcases hcandidate with rfl | rfl
    · exact absurd (by decide) hunwritten.1
    · exact absurd (by decide) hunwritten.1
  · rintro type (rfl | rfl) first hfirst second hsecond - -
    · have hone : ∀ placement ∈ [MailuCandidate.plain .domain (ascii "x.test") [],
          .plain .user (ascii "a@x.test") (ascii "v")].filterMap (plainImport.placement .user),
          placement.contents = some (ascii "v") := by decide
      rw [hone first hfirst, hone second hsecond]
    · cases hfirst
  · intro name hname
    left
    refine ⟨.plain .domain (ascii "x.test") [], List.mem_cons_self, ?_⟩
    revert name
    decide

set_option maxRecDepth 100000 in
theorem import_exact_plain :
    plainImport.ImportExact (plainImport.imported (plainImport.preview [] plainActor 0)) .empty
      (plainImport.applied .empty).2.tables := by
  have hresult : (plainImport.applied .empty).1 = .ok () := by decide +kernel
  have happly := (ImportSite.applied.eq_1 plainImport .empty).symm
  have hclean := plainImport_clean
  generalize plainImport.applied .empty = outcome at hresult happly ⊢
  obtain ⟨result, after⟩ := outcome
  cases hresult
  exact (import_exact_iff plainImport _ _ _ _ _ _ _ _ _ (AList.lookup_insert _) happly).mpr hclean

/-- A site whose sources are all a key for a domain and an alias in another. -/
def aliasImport : ImportSite :=
  { plainImport with
    decodeCandidates := fun _ => some [.plain .dkim (ascii "x.test") (ascii "k"),
      .plain .alias (ascii "b@off.test") (ascii "a@x.test")] }

def disabledDomain : MailTables where
  domains := ⟨⟨[⟨ascii "1", ascii "x.test", true, 0, 0⟩,
    ⟨ascii "2", ascii "off.test", false, 0, 0⟩], by decide⟩, by decide⟩
  mailboxes := ⟨⟨[⟨ascii "3", ascii "1", ascii "a", true, none, 0, 0⟩], by decide⟩, by decide⟩
  aliases := MailTables.empty.aliases
  relays := .empty

set_option maxRecDepth 100000 in
/-- The import succeeds; the key is stored nowhere, and the domain of the alias is
enabled again. -/
theorem import_reenables_domain :
    (aliasImport.applied disabledDomain).1 = .ok () ∧
      (aliasImport.applied disabledDomain).2.tables.domains.rows =
        [⟨ascii "1", ascii "x.test", true, 0, 0⟩, ⟨ascii "2", ascii "off.test", true, 0, 0⟩] ∧
      ¬ aliasImport.ImportExact
        (aliasImport.imported (aliasImport.preview [] plainActor 0)) disabledDomain
        (aliasImport.applied disabledDomain).2.tables := by
  refine ⟨by decide +kernel, by decide +kernel, fun hexact => ?_⟩
  exact hexact.stored (.plain .dkim (ascii "x.test") (ascii "k")) (by decide)

end GotthMail
