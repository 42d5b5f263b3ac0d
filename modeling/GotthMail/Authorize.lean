/-
The static authorizer.  The roles of a subject come from its own assignments and
from the groups that are mapped to roles.  Two loops collect them, with different
ideas of a domain and of an unknown role, so a mapping grants what the assignment
in its place would only where the two agree.
-/
import GotthMail.Approval

namespace GotthMail

open Bytes

structure RoleMapping where
  authentikGroup : Text
  role : Text
  domain : Text
  verified : Bool

structure RoleAssignment where
  role : Text
  domain : Text

structure Actor where
  type : Text
  id : Text := []
  mailbox : Text := []
  scopes : List Text := []
  groups : List Text := []
  roles : List RoleAssignment := []

structure AccessDecision where
  allow : Bool
  reason : String
deriving DecidableEq

structure Explanation where
  decision : AccessDecision
  steps : List String
  matchedRules : List Text
  missingRequirements : List String
deriving DecidableEq

def roleGlobalAdmin : Text := ascii "global_admin"

def roleDomainManager : Text := ascii "domain_manager"

def roleScopedDomainAccess : Text := ascii "scoped_domain_access"

/-- The domains of each role. -/
abbrev RoleTable := List (Text × List Text)

namespace RoleTable

def empty : RoleTable :=
  [(roleGlobalAdmin, []), (roleDomainManager, []), (roleScopedDomainAccess, [])]

/-- Add a domain to a role.  A role that is not in the table has no map to write
to, and the program stops. -/
def add (role domain : Text) : RoleTable → Option RoleTable
  | [] => none
  | (known, domains) :: rest =>
    if known = role then some ((known, domain :: domains) :: rest)
    else (add role domain rest).map fun added => (known, domains) :: added

def has (roles : RoleTable) (role domain : Text) : Bool :=
  ((roles.lookup role).getD []).contains domain

end RoleTable

/-- The domain of an assignment; a blank one stands for all. -/
def assignedDomain (p : Platform) (domain : Text) : Text :=
  let domain := p.lower (trimSpace domain)
  if domain = [] then ascii "*" else domain

def mappedDomain (domain : Text) : Text := if domain = [] then ascii "*" else domain

def RoleMapping.applies (actor : Actor) (m : RoleMapping) : Bool :=
  m.verified && actor.groups.contains m.authentikGroup

def assignmentRoles (p : Platform) (actor : Actor) : RoleTable :=
  actor.roles.foldl (fun roles assignment =>
    -- a role outside the table is passed over
    (roles.add assignment.role (assignedDomain p assignment.domain)).getD roles) RoleTable.empty

def rolesFor (p : Platform) (mappings : List RoleMapping) (actor : Actor) :
    Option RoleTable :=
  mappings.foldlM (fun roles m => if m.applies actor then roles.add m.role (mappedDomain m.domain)
    else some roles) (assignmentRoles p actor)

def resourceDomain (p : Platform) (r : Resource) : Text :=
  if r.type = ascii "domain" then p.lower r.id
  else
    match lastIndexByte r.id atSign with
    | some index => p.lower (r.id.drop (index + 1))
    | none => p.lower r.id

def startsWith (act : Text) (word : String) : Bool := (ascii word).isPrefixOf act

def mentions (act : Text) (word : String) : Bool := (indexOf (ascii word) act).isSome

def explained (allow : Bool) (reason step : String) (rules : List Text)
    (missing : List String) : Explanation :=
  ⟨⟨allow, reason⟩, ["load actor", "load resource", "evaluate policy", step], rules, missing⟩

def permitted (reason : String) (rule : Text) : Explanation :=
  explained true reason reason [rule] []

def denied (reason missing : String) : Explanation := explained false reason reason [] [missing]

/-- A subject at its own mailbox. -/
def ownMailbox (p : Platform) (actor : Actor) (r : Resource) : Bool :=
  actor.mailbox != [] && p.equalFold actor.mailbox r.id

def readsStatus (act : Text) : Bool := startsWith act "status:" || startsWith act "doctor:"

def managesDomain (act : Text) : Bool :=
  startsWith act "domain:" || startsWith act "mailbox:" || startsWith act "alias:"

def readsDomain (act : Text) : Bool :=
  startsWith act "mailbox:read" || startsWith act "alias:read" || startsWith act "domain:read"

def explainRoles (p : Platform) (roles : RoleTable) (act : Text) (r : Resource) :
    Explanation :=
  let domain := resourceDomain p r
  if roles.has roleGlobalAdmin (ascii "*") then
    permitted "global admin role matched" (ascii "oidc:global_admin")
  else if readsStatus act then
    explained true "OIDC subject may read bounded status" "bounded read allowed"
      [ascii "oidc:status_read"] []
  else if roles.has roleDomainManager domain && managesDomain act then
    permitted "domain manager role matched" (ascii "oidc:domain_manager:" ++ domain)
  else if roles.has roleScopedDomainAccess domain && readsDomain act then
    permitted "scoped domain access role matched" (ascii "oidc:scoped_domain_access:" ++ domain)
  else
    explained false "OIDC subject lacks required Authentik role mapping"
      "no matching Authentik role mapping" [] ["global_admin_or_domain_mapping"]

/-- What a subject may do with its own mailbox, whatever its roles. -/
def explainMailbox (p : Platform) (actor : Actor) (act : Text) (r : Resource) :
    Option Explanation :=
  if ownMailbox p actor r && act == ascii "webmail:use" then
    some (explained true "OIDC subject may use webmail for its bound mailbox"
      "bound mailbox matched" [ascii "oidc:bound_mailbox:webmail"] [])
  else if ownMailbox p actor r && startsWith act "mailbox:app_password." then
    some (explained true "OIDC subject may manage app passwords for its bound mailbox"
      "bound mailbox matched" [ascii "oidc:bound_mailbox:app_password"] [])
  else none

def explainOIDC (p : Platform) (mappings : List RoleMapping) (actor : Actor)
    (act : Text) (r : Resource) : Option Explanation :=
  match explainMailbox p actor act r with
  | some explanation => some explanation
  | none => (rolesFor p mappings actor).map fun roles => explainRoles p roles act r

/-- The scope of a token that covers an action on a resource. -/
def matchedScope (p : Platform) (actor : Actor) (act : Text) (r : Resource) :
    Option Text :=
  actor.scopes.find? fun scope => scope == act || scope == act ++ ascii ":" ++ p.lower r.id ||
      scope == ascii "mailbox:" ++ p.lower r.id ++ ascii ":" ++ act

/-- The explanation of a decision; none when the program stops. -/
def explain (p : Platform) (mappings : List RoleMapping) (actor : Actor)
    (act : Text) (r : Resource) : Option Explanation :=
  if actor.type = ascii "local_admin" then
    some (permitted "local admin may administer all resources" (ascii "local_admin:all"))
  else if actor.type = ascii "break_glass" then
    some (if startsWith act "bootstrap:" || startsWith act "recovery:" then
      permitted "break-glass limited to bootstrap/recovery" (ascii "break_glass:bootstrap_recovery")
    else denied "break-glass denied outside bootstrap/recovery" "bootstrap_or_recovery_action")
  else if actor.type = ascii "api_token" then
    some (match matchedScope p actor act r with
    | some scope => permitted "api token scope matched" (ascii "api_token:scope:" ++ scope)
    | none => denied "api token scope missing" "matching_api_scope")
  else if actor.type = ascii "plugin_service" then
    some (if startsWith act "plugin:" && !mentions act "grant" &&
        !mentions act "policy" then
      permitted "plugin service limited to plugin actions" (ascii "plugin_service:plugin_action")
    else denied "plugin service cannot mutate core policy or grant roles"
      "non_policy_plugin_action")
  else if actor.type = ascii "system" then
    some (if startsWith act "system:" || startsWith act "notification:" then
      permitted "system actor limited to system actions" (ascii "system:system_action")
    else denied "system actor denied for user/admin action" "system_action")
  else if actor.type = ascii "scim_client" then
    some (if startsWith act "scim:" || startsWith act "mailbox:provision" then
      permitted "SCIM client limited to provisioning actions" (ascii "scim_client:provisioning")
    else denied "SCIM client denied outside provisioning" "scim_or_provisioning_action")
  else if actor.type = ascii "oidc_subject" then explainOIDC p mappings actor act r
  else some (denied "unknown actor type" "known_actor_type")

def knownRole (role : Text) : Bool :=
  role == roleGlobalAdmin || role == roleDomainManager || role == roleScopedDomainAccess

def mappingProblems (p : Platform) (known : List Text) (m : RoleMapping) : List Text :=
  (if trimSpace m.authentikGroup = [] then [ascii "authentik_group_required"]
    else []) ++
  (if knownRole m.role then [] else [ascii "unknown_role:" ++ m.role]) ++
  (if (m.role = roleDomainManager ∨ m.role = roleScopedDomainAccess) ∧
      m.domain ≠ [] ∧ p.lower m.domain ∉ known then
    [ascii "unknown_domain:" ++ m.domain] else []) ++
  if m.verified then [] else [ascii "mapping_unverified:" ++ m.authentikGroup]

def validateRoleMappings (p : Platform) (mappings : List RoleMapping)
    (knownDomains : List Text) : List Text :=
  mappings.flatMap (mappingProblems p (knownDomains.map p.lower)) ++
    ([roleGlobalAdmin, roleDomainManager, roleScopedDomainAccess].filter
      fun role => !mappings.any (·.role == role)).map (ascii "missing_required_mapping:" ++ ·)

section Tables

variable {roles next : RoleTable} {role other domain key : Text}

theorem RoleTable.add_some (hadd : roles.add role domain = some next) :
    next.map Prod.fst = roles.map Prod.fst ∧ role ∈ roles.map Prod.fst ∧
      ∀ other key, next.has other key = true ↔
        roles.has other key = true ∨ role = other ∧ domain = key := by
  induction roles generalizing next with
  | nil => cases hadd
  | cons entry rest ih =>
    obtain ⟨known, domains⟩ := entry
    rw [RoleTable.add] at hadd
    split at hadd
    · rename_i hknown
      cases hadd
      refine ⟨rfl, by simp [hknown], fun other key => ?_⟩
      by_cases hother : other = role
      · have hsides : key = domain ∨ key ∈ domains ↔ key ∈ domains ∨ domain = key := by
          rw [or_comm, eq_comm (a := key)]
        simpa [RoleTable.has, List.lookup_cons, hknown, hother] using hsides
      · have hne : (other == known) = false := by simpa [hknown] using hother
        simp [RoleTable.has, List.lookup_cons, hne, Ne.symm hother]
    · rename_i hknown
      obtain ⟨added, hadded, rfl⟩ := Option.map_eq_some_iff.mp hadd
      obtain ⟨hkeys, hmem, hhas⟩ := ih hadded
      refine ⟨by simp [hkeys], by simp [hmem], fun other key => ?_⟩
      by_cases hother : other = known
      · have hrole : role ≠ other := fun hsame => hknown (hother.symm.trans hsame.symm)
        simp [RoleTable.has, hother, hother ▸ hrole]
      · have hne : (other == known) = false := by simpa using hother
        simpa [RoleTable.has, List.lookup_cons, hne] using hhas other key

theorem RoleTable.add_none : roles.add role domain = none ↔ role ∉ roles.map Prod.fst := by
  induction roles with
  | nil => simp [RoleTable.add]
  | cons entry rest ih =>
    obtain ⟨known, domains⟩ := entry
    rw [RoleTable.add]
    split
    · rename_i hknown
      simp [hknown]
    · rename_i hknown
      simp [ih, Ne.symm hknown]

/-- A table that has the three roles and no other. -/
def RoleTable.Complete (roles : RoleTable) : Prop :=
  roles.map Prod.fst = RoleTable.empty.map Prod.fst

theorem RoleTable.Complete.mem_iff (hroles : roles.Complete) :
    role ∈ roles.map Prod.fst ↔ knownRole role = true := by
  rw [hroles]
  simp [RoleTable.empty, knownRole, or_assoc]

end Tables

section Lookups

variable {p : Platform} {mappings : List RoleMapping} {actor : Actor}
  {roles : RoleTable} {role key : Text}

/-- The role is assigned to the actor for a domain. -/
def Assigned (p : Platform) (actor : Actor) (role key : Text) : Prop :=
  ∃ assignment ∈ actor.roles, assignment.role = role ∧ assignedDomain p assignment.domain = key

/-- The role is mapped to a group of the actor, for a domain that is read in some
way. -/
def Mapped (readDomain : Text → Text) (mappings : List RoleMapping) (actor : Actor)
    (role key : Text) : Prop :=
  ∃ m ∈ mappings, m.applies actor = true ∧ m.role = role ∧ readDomain m.domain = key

variable (p roles) in
theorem assignments_has (assignments : List RoleAssignment) (hroles : roles.Complete) :
    let after := assignments.foldl (fun roles assignment =>
      (roles.add assignment.role (assignedDomain p assignment.domain)).getD roles) roles
    after.Complete ∧ ∀ role key, knownRole role = true →
      (after.has role key = true ↔ roles.has role key = true ∨
        ∃ assignment ∈ assignments, assignment.role = role ∧
          assignedDomain p assignment.domain = key) := by
  induction assignments generalizing roles with
  | nil => simpa using hroles
  | cons assignment rest ih =>
    rw [List.foldl_cons]
    cases hadd : roles.add assignment.role (assignedDomain p assignment.domain) with
    | none =>
      obtain ⟨hcomplete, hhas⟩ := ih roles hroles
      refine ⟨hcomplete, fun role key hrole => (hhas role key hrole).trans ?_⟩
      have hunknown := RoleTable.add_none.mp hadd
      rw [hroles.mem_iff] at hunknown
      have hne : assignment.role ≠ role := fun hsame => hunknown (hsame ▸ hrole)
      simp [hne]
    | some next =>
      obtain ⟨hkeys, _, hnext⟩ := RoleTable.add_some hadd
      obtain ⟨hcomplete, hhas⟩ := ih next (show next.Complete from hkeys.trans hroles)
      refine ⟨hcomplete, fun role key hrole => (hhas role key hrole).trans ?_⟩
      simp only [hnext, List.mem_cons, exists_eq_or_imp, or_assoc]

theorem empty_has (role key : Text) : RoleTable.empty.has role key = false := by
  simp only [RoleTable.has, RoleTable.empty, List.lookup_cons, List.lookup_nil]
  split <;> [rfl; (split <;> [rfl; (split <;> rfl)])]

theorem assignmentRoles_has (p : Platform) (actor : Actor) :
    (assignmentRoles p actor).Complete ∧ ∀ role key, knownRole role = true →
      ((assignmentRoles p actor).has role key = true ↔ Assigned p actor role key) := by
  obtain ⟨hcomplete, hhas⟩ := assignments_has p .empty actor.roles rfl
  refine ⟨hcomplete, fun role key hrole => (hhas role key hrole).trans ?_⟩
  simp [empty_has, Assigned]

variable (mappings actor) in
theorem mappings_has (hroles : roles.Complete) :
    ((∃ m ∈ mappings, m.applies actor = true ∧ knownRole m.role = false) ∧
      mappings.foldlM (fun roles m =>
        if m.applies actor then roles.add m.role (mappedDomain m.domain)
        else some roles) roles = none) ∨
    ((∀ m ∈ mappings, m.applies actor = true → knownRole m.role = true) ∧
      ∃ after : RoleTable, mappings.foldlM (fun roles m =>
        if m.applies actor then roles.add m.role (mappedDomain m.domain)
        else some roles) roles = some after ∧ ∀ role key,
          (after.has role key = true ↔ roles.has role key = true ∨
            Mapped mappedDomain mappings actor role key)) := by
  induction mappings generalizing roles with
  | nil => exact .inr ⟨nofun, roles, rfl, by simp [Mapped]⟩
  | cons m rest ih =>
    rw [List.foldlM_cons]
    by_cases happlies : m.applies actor = true
    · rw [if_pos happlies]
      cases hadd : roles.add m.role (mappedDomain m.domain) with
      | none =>
        have hunknown := RoleTable.add_none.mp hadd
        rw [hroles.mem_iff, Bool.not_eq_true] at hunknown
        exact .inl ⟨⟨m, List.mem_cons_self, happlies, hunknown⟩, rfl⟩
      | some next =>
        obtain ⟨hkeys, hmem, hnext⟩ := RoleTable.add_some hadd
        have hknown := hroles.mem_iff.mp hmem
        rcases ih (show next.Complete from hkeys.trans hroles) with
          ⟨⟨other, hother, hbad⟩, hnone⟩ | ⟨hgood, after, hafter, hhas⟩
        · exact .inl ⟨⟨other, List.mem_cons_of_mem m hother, hbad⟩, hnone⟩
        · refine .inr ⟨List.forall_mem_cons.mpr ⟨fun _ => hknown, hgood⟩, after,
            hafter, fun role key => (hhas role key).trans ?_⟩
          simp only [hnext, Mapped, List.mem_cons, exists_eq_or_imp, happlies, true_and, or_assoc]
    · rw [if_neg happlies]
      rcases ih hroles with ⟨⟨other, hother, hbad⟩, hnone⟩ | ⟨hgood, after, hafter, hhas⟩
      · exact .inl ⟨⟨other, List.mem_cons_of_mem m hother, hbad⟩, hnone⟩
      · refine .inr ⟨List.forall_mem_cons.mpr
          ⟨fun happly => absurd happly happlies, hgood⟩, after, hafter,
          fun role key => (hhas role key).trans ?_⟩
        simp [Mapped, happlies]

end Lookups

/-- The actor without its groups, with an assignment for each mapping that
applies. -/
def Actor.assigned (mappings : List RoleMapping) (actor : Actor) : Actor :=
  { actor with
    groups := []
    roles := actor.roles ++ (mappings.filter (·.applies actor)).map fun m => ⟨m.role, m.domain⟩ }

/-- A role that the actor has for a domain, with the domains of the mappings read
in some way. -/
def HoldsRole (p : Platform) (readDomain : Text → Text) (mappings : List RoleMapping)
    (actor : Actor) (role key : Text) : Prop :=
  Assigned p actor role key ∨ Mapped readDomain mappings actor role key

/-- The roles that decide are the same, whether the domain of a mapping is taken as
it is written or in the way of an assignment. -/
structure SameRoles (p : Platform) (mappings : List RoleMapping) (actor : Actor)
    (act : Text) (r : Resource) : Prop where
  admin : HoldsRole p mappedDomain mappings actor roleGlobalAdmin (ascii "*") ↔
    HoldsRole p (assignedDomain p) mappings actor roleGlobalAdmin (ascii "*")
  manager : ¬HoldsRole p mappedDomain mappings actor roleGlobalAdmin (ascii "*") →
    readsStatus act = false → managesDomain act = true →
      (HoldsRole p mappedDomain mappings actor roleDomainManager (resourceDomain p r) ↔
        HoldsRole p (assignedDomain p) mappings actor roleDomainManager (resourceDomain p r))
  access : ¬HoldsRole p mappedDomain mappings actor roleGlobalAdmin (ascii "*") →
    readsStatus act = false → readsDomain act = true →
      ¬HoldsRole p mappedDomain mappings actor roleDomainManager (resourceDomain p r) →
        (HoldsRole p mappedDomain mappings actor roleScopedDomainAccess (resourceDomain p r) ↔
          HoldsRole p (assignedDomain p) mappings actor roleScopedDomainAccess (resourceDomain p r))

section Decisions

variable {p : Platform} {mappings : List RoleMapping} {actor : Actor} {act : Text}
  {r : Resource} {left right : RoleTable}

variable (p actor) in
theorem rolesFor_has (hknown : ∀ m ∈ mappings, m.applies actor = true → knownRole m.role = true) :
    ∃ roles : RoleTable, rolesFor p mappings actor = some roles ∧
      ∀ role key, knownRole role = true →
        (roles.has role key = true ↔ HoldsRole p mappedDomain mappings actor role key) := by
  obtain ⟨hcomplete, hassigned⟩ := assignmentRoles_has p actor
  rcases mappings_has mappings actor hcomplete with
    ⟨⟨m, hm, happlies, hunknown⟩, _⟩ | ⟨_, roles, hroles, hhas⟩
  · rw [hknown m hm happlies] at hunknown
    cases hunknown
  · refine ⟨roles, hroles, fun role key hrole => (hhas role key).trans ?_⟩
    rw [hassigned role key hrole, HoldsRole]

theorem rolesFor_none
    (hunknown : ∃ m ∈ mappings, m.applies actor = true ∧ knownRole m.role = false) :
    rolesFor p mappings actor = none := by
  rcases mappings_has mappings actor (assignmentRoles_has p actor).1 with ⟨_, hnone⟩ | ⟨hknown, _⟩
  · exact hnone
  · obtain ⟨m, hm, happlies, hrole⟩ := hunknown
    rw [hknown m hm happlies] at hrole
    cases hrole

/-- The assignments in place of the mappings. -/
theorem assigned_rolesFor (p : Platform) (mappings : List RoleMapping) (actor : Actor) :
    ∃ roles : RoleTable, rolesFor p [] (actor.assigned mappings) = some roles ∧
      ∀ role key, knownRole role = true → (roles.has role key = true ↔
          HoldsRole p (assignedDomain p) mappings actor role key) := by
  obtain ⟨_, hassigned⟩ := assignmentRoles_has p (actor.assigned mappings)
  refine ⟨_, rfl, fun role key hrole => (hassigned role key hrole).trans ?_⟩
  simp only [Assigned, Actor.assigned, List.mem_append, or_and_right, exists_or,
    List.mem_map, List.mem_filter, HoldsRole, Mapped]
  refine or_congr Iff.rfl ⟨?_, ?_⟩
  · rintro ⟨_, ⟨m, ⟨hm, happlies⟩, rfl⟩, hsame⟩
    exact ⟨m, hm, happlies, hsame⟩
  · rintro ⟨m, hm, happlies, hsame⟩
    exact ⟨_, ⟨m, ⟨hm, happlies⟩, rfl⟩, hsame⟩

variable (act) in
theorem readsDomain_manages (hreads : readsDomain act = true) : managesDomain act = true := by
  have hwords : ascii "mailbox:" <+: ascii "mailbox:read" ∧ ascii "alias:" <+: ascii "alias:read" ∧
      ascii "domain:" <+: ascii "domain:read" := by decide
  simp only [readsDomain, managesDomain, startsWith, Bool.or_eq_true,
    List.isPrefixOf_iff_prefix] at hreads ⊢
  rcases hreads with (hmailbox | halias) | hdomain
  · exact .inl (.inr (hwords.1.trans hmailbox))
  · exact .inr (hwords.2.1.trans halias)
  · exact .inl (.inl (hwords.2.2.trans hdomain))

/-- Two tables decide alike when the roles that are looked up are the same. -/
theorem explainRoles_decision :
    (explainRoles p left act r).decision = (explainRoles p right act r).decision ↔
      left.has roleGlobalAdmin (ascii "*") = right.has roleGlobalAdmin (ascii "*") ∧
      (left.has roleGlobalAdmin (ascii "*") = false → readsStatus act = false →
        managesDomain act = true → left.has roleDomainManager (resourceDomain p r) =
          right.has roleDomainManager (resourceDomain p r)) ∧
      (left.has roleGlobalAdmin (ascii "*") = false → readsStatus act = false →
        readsDomain act = true → left.has roleDomainManager (resourceDomain p r) = false →
          left.has roleScopedDomainAccess (resourceDomain p r) =
            right.has roleScopedDomainAccess (resourceDomain p r)) := by
  have hreads := readsDomain_manages act
  unfold explainRoles permitted explained
  dsimp only
  generalize left.has roleGlobalAdmin (ascii "*") = leftAdmin
  generalize right.has roleGlobalAdmin (ascii "*") = rightAdmin
  generalize left.has roleDomainManager (resourceDomain p r) = leftManager
  generalize right.has roleDomainManager (resourceDomain p r) = rightManager
  generalize left.has roleScopedDomainAccess (resourceDomain p r) = leftScoped
  generalize right.has roleScopedDomainAccess (resourceDomain p r) = rightScoped
  generalize readsStatus act = status
  generalize managesDomain act = manages at hreads ⊢
  generalize readsDomain act = reads at hreads ⊢
  cases leftAdmin <;> cases rightAdmin <;> cases status <;> grind

variable (p mappings act r) in
theorem explain_other (htype : actor.type ≠ ascii "oidc_subject") :
    ∃ explanation, explain p mappings actor act r = some explanation ∧
      explain p [] (actor.assigned mappings) act r = some explanation := by
  have hsame : explain p [] (actor.assigned mappings) act r =
      explain p mappings actor act r := by
    have hassigned : (actor.assigned mappings).type ≠ ascii "oidc_subject" := htype
    simp only [explain, matchedScope, if_neg htype, if_neg hassigned]
    rfl
  have hsome : (explain p mappings actor act r).isSome = true := by
    simp only [explain, if_neg htype]
    split_ifs <;> rfl
  obtain ⟨explanation, hexplain⟩ := Option.isSome_iff_exists.mp hsome
  exact ⟨explanation, hexplain, hsame.trans hexplain⟩

theorem explain_subject (htype : actor.type = ascii "oidc_subject") :
    explain p mappings actor act r = explainOIDC p mappings actor act r := by
  have hnames : ascii "oidc_subject" ≠ ascii "local_admin" ∧
      ascii "oidc_subject" ≠ ascii "break_glass" ∧ ascii "oidc_subject" ≠ ascii "api_token" ∧
      ascii "oidc_subject" ≠ ascii "plugin_service" ∧ ascii "oidc_subject" ≠ ascii "system" ∧
      ascii "oidc_subject" ≠ ascii "scim_client" := by decide
  simp [explain, htype, hnames]

/-- The explanation of a subject by its roles. -/
theorem explainOIDC_roles {roles : RoleTable} (hmailbox : explainMailbox p actor act r = none)
    (hroles : rolesFor p mappings actor = some roles) :
    explainOIDC p mappings actor act r = some (explainRoles p roles act r) := by
  rw [explainOIDC, hmailbox, hroles]
  rfl

variable (act r) in
theorem explainRoles_iff (hleft : ∀ role key, knownRole role = true →
      (left.has role key = true ↔ HoldsRole p mappedDomain mappings actor role key))
    (hright : ∀ role key, knownRole role = true → (right.has role key = true ↔
      HoldsRole p (assignedDomain p) mappings actor role key)) :
    (explainRoles p left act r).decision = (explainRoles p right act r).decision ↔
      SameRoles p mappings actor act r := by
  have hknown : knownRole roleGlobalAdmin = true ∧ knownRole roleDomainManager = true ∧
      knownRole roleScopedDomainAccess = true := by decide
  obtain ⟨hadmin, hmanager, hscoped⟩ := hknown
  rw [explainRoles_decision]
  simp only [Bool.eq_iff_iff (a := left.has _ _) (b := right.has _ _),
    ← Bool.not_eq_true (left.has _ _), hleft _ _ hadmin, hright _ _ hadmin,
    hleft _ _ hmanager, hright _ _ hmanager, hleft _ _ hscoped, hright _ _ hscoped]
  exact ⟨fun ⟨hone, htwo, hthree⟩ => ⟨hone, htwo, hthree⟩,
    fun hsame => ⟨hsame.admin, hsame.manager, hsame.access⟩⟩

theorem validateRoleMappings_nil {known : List Text}
    (hvalid : validateRoleMappings p mappings known = []) :
    ∀ m ∈ mappings, knownRole m.role = true ∧ m.verified = true := by
  intro m hm
  have hproblems : mappingProblems p (known.map p.lower) m = [] :=
    List.flatMap_eq_nil_iff.mp (List.append_eq_nil_iff.mp hvalid).1 m hm
  simp only [mappingProblems, List.append_eq_nil_iff] at hproblems
  obtain ⟨⟨⟨_, hrole⟩, _⟩, hverified⟩ := hproblems
  constructor
  · by_contra hunknown
    rw [if_neg hunknown] at hrole
    cases hrole
  · by_contra hunverified
    rw [if_neg hunverified] at hverified
    cases hverified

/-- The manager of a domain may manage it, whatever other roles it has. -/
theorem explainRoles_manager {roles : RoleTable} (hmanages : managesDomain act = true)
    (hrole : roles.has roleDomainManager (resourceDomain p r) = true) :
    (explainRoles p roles act r).decision.allow = true := by
  unfold explainRoles
  dsimp only
  rw [hmanages, hrole, Bool.and_self, if_pos rfl]
  split_ifs
  · rfl
  · rfl
  · rfl

theorem explainMailbox_allow {explanation : Explanation}
    (hmailbox : explainMailbox p actor act r = some explanation) :
    explanation.decision.allow = true := by
  unfold explainMailbox at hmailbox
  split_ifs at hmailbox
  · cases hmailbox
    rfl
  · cases hmailbox
    rfl

end Decisions

/-- The mappings decide as the assignments in their place exactly when no role of
a mapping that applies is unknown and the roles that are looked up are the same.  A
list without problems lets a manager act on its domain, if that is written in lower
case. -/
theorem explain_assigned_iff (p : Platform) (mappings : List RoleMapping)
    (actor : Actor) (act : Text) (r : Resource) :
    ((∃ explanation expected, explain p mappings actor act r = some explanation ∧
        explain p [] (actor.assigned mappings) act r = some expected ∧
        explanation.decision = expected.decision) ↔
      actor.type ≠ ascii "oidc_subject" ∨ (explainMailbox p actor act r).isSome = true ∨
        (∀ m ∈ mappings, m.applies actor = true → knownRole m.role = true) ∧
          SameRoles p mappings actor act r) ∧
    ∀ known, validateRoleMappings p mappings known = [] → ∀ m ∈ mappings,
      m.role = roleDomainManager → m.domain ≠ [] → p.lower m.domain = m.domain →
        actor.type = ascii "oidc_subject" → m.authentikGroup ∈ actor.groups →
          resourceDomain p r = p.lower m.domain → managesDomain act = true →
            ∃ explanation, explain p mappings actor act r = some explanation ∧
              explanation.decision.allow = true := by
  constructor
  · by_cases htype : actor.type = ascii "oidc_subject"
    · have hassigned : (actor.assigned mappings).type = ascii "oidc_subject" := htype
      rw [explain_subject htype, explain_subject hassigned]
      cases hmailbox : explainMailbox p actor act r with
      | some explanation =>
        have hsame : explainMailbox p (actor.assigned mappings) act r =
          some explanation := hmailbox
        simp [explainOIDC, hmailbox, hsame]
      | none =>
        have hsame : explainMailbox p (actor.assigned mappings) act r = none := hmailbox
        obtain ⟨right, hright, hrightHas⟩ := assigned_rolesFor p mappings actor
        rw [explainOIDC_roles hsame hright]
        by_cases hknown : ∀ m ∈ mappings, m.applies actor = true → knownRole m.role = true
        · obtain ⟨left, hleft, hleftHas⟩ := rolesFor_has p actor hknown
          rw [explainOIDC_roles hmailbox hleft, and_iff_right hknown]
          simpa [htype] using explainRoles_iff act r hleftHas hrightHas
        · have hunknown : ∃ m ∈ mappings, m.applies actor = true ∧ knownRole m.role = false := by
            simpa using hknown
          simp [explainOIDC, hmailbox, rolesFor_none hunknown, htype, hknown]
    · obtain ⟨explanation, hleft, hright⟩ := explain_other p mappings act r htype
      simp [hleft, hright, htype]
  · intro known hvalid m hm hrole hdomain hlower htype hgroup hresource hmanages
    rw [explain_subject htype]
    cases hmailbox : explainMailbox p actor act r with
    | some explanation =>
      exact ⟨explanation, by rw [explainOIDC, hmailbox], explainMailbox_allow hmailbox⟩
    | none =>
      obtain ⟨roles, hroles, hhas⟩ := rolesFor_has p actor
        fun other hother _ => (validateRoleMappings_nil hvalid other hother).1
      refine ⟨_, explainOIDC_roles hmailbox hroles, explainRoles_manager hmanages ?_⟩
      refine (hhas _ _ (by decide)).mpr (.inr ⟨m, hm, ?_, hrole, ?_⟩)
      · rw [RoleMapping.applies, (validateRoleMappings_nil hvalid m hm).2]
        simpa using hgroup
      · rw [hresource, hlower, mappedDomain, if_neg hdomain]

/-- One mapping for each role, with a domain as given. -/
def sampleMappings (role domain : Text) : List RoleMapping :=
  [⟨ascii "admins", roleGlobalAdmin, [], true⟩, ⟨ascii "staff", role, domain, true⟩,
    ⟨ascii "desk", roleScopedDomainAccess, domain, true⟩]

def sampleStaff : Actor :=
  { type := ascii "oidc_subject", groups := [ascii "staff"] }

def sampleMailbox : Resource := ⟨ascii "mailbox", ascii "a@example.test"⟩

/-- The manager of a domain in lower case may create a mailbox in it. -/
theorem explain_assigned_staff :
    ∃ explanation, explain asciiPlatform
        (sampleMappings roleDomainManager (ascii "example.test")) sampleStaff
        (ascii "mailbox:create") sampleMailbox = some explanation ∧
      explanation.decision.allow = true := by
  refine (explain_assigned_iff asciiPlatform _ sampleStaff (ascii "mailbox:create")
    sampleMailbox).2 [ascii "example.test"] ?_
    ⟨ascii "staff", roleDomainManager, ascii "example.test", true⟩ ?_ rfl ?_ ?_ rfl ?_ ?_ ?_
  · decide +kernel
  · exact List.mem_cons_of_mem _ List.mem_cons_self
  · decide
  · decide
  · decide
  · decide
  · decide

/-- A list without problems whose domain has a capital letter grants nothing to its
manager, while the assignment does; and an unknown role stops the program. -/
theorem capital_mapping_denied :
    validateRoleMappings asciiPlatform (sampleMappings roleDomainManager (ascii "Example.test"))
        [ascii "example.test"] = [] ∧
      (explain asciiPlatform (sampleMappings roleDomainManager (ascii "Example.test")) sampleStaff
          (ascii "mailbox:create") sampleMailbox).map (·.decision) =
        some ⟨false, "OIDC subject lacks required Authentik role mapping"⟩ ∧
      (explain asciiPlatform [] (sampleStaff.assigned
          (sampleMappings roleDomainManager (ascii "Example.test")))
          (ascii "mailbox:create") sampleMailbox).map (·.decision) =
        some ⟨true, "domain manager role matched"⟩ ∧
      explain asciiPlatform (sampleMappings (ascii "owner") []) sampleStaff
        (ascii "mailbox:create") sampleMailbox = none := by
  decide +kernel

end GotthMail
