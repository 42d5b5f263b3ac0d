/-
Where a login leads.  The address to return to is checked when a login starts, by
the parser of the server, and sent to the browser when it ends, which reads it by
other rules.
-/
import GotthMail.Domain
import GotthMail.Url

namespace GotthMail

open Bytes Url

/-- The address to return to, checked with a given reading of hosts. -/
def localRedirect (parseHost : Text → Option Text) (value : Text) :
    Except Error Text :=
  if value = [] then .ok (ascii "/")
  else do
    check (decide (value.length ≤ 2048) && validUTF8 value &&
      !(decode value).any isControl) "invalid oidc state"
    let parsed ← require (Url.parse parseHost value) "invalid oidc state"
    check (parsed.scheme == [] && parsed.host == [] &&
      parsed.path.head? == some slash && !(ascii "//").isPrefixOf parsed.path) "invalid oidc state"
    return value

/-- A target with the directory of the callback before it, unless it starts with a slash. -/
def rooted (target : Text) : Text :=
  if target.head? = some slash then target else ascii "/api/v1/oidc/" ++ target

/-- The target of a redirect from the callback, as it is written to the header. -/
def redirectLocation (parseHost : Text → Option Text) (target : Text) : Text :=
  let target := if target = [] then ascii "/" else target
  escapeBytes
    (match Url.parse parseHost target with
    | none => target
    | some parsed =>
      if parsed.scheme = [] ∧ parsed.host = [] then cleanReference (rooted target) else target)

/-- The origin of the service, at a host and a port. -/
def serviceOrigin (host : Text) (port : Option Nat) : Origin := ⟨ascii "https", host, port⟩

section Accepted

variable {parseHost readHost : Text → Option Text} {value target : Text}

/-- What is returned starts as a relative reference and has no line break. -/
structure Harmless (target : Text) : Prop where
  head : target.head? = some slash ∨ target.head? = some 37
  counts : ∀ byte ∈ target, isIgnored byte = false

theorem not_ignored_of_control (hcontrol : (decode value).any isControl = false) :
    ∀ byte ∈ value, isIgnored byte = false := by
  intro byte hbyte
  by_contra hignored
  simp only [isIgnored, Bool.not_eq_false, Bool.or_eq_true, beq_iff_eq] at hignored
  have hlow : byte < 128 := by
    rcases hignored with (rfl | rfl) | rfl
    · decide
    · decide
    · decide
  have hrune := List.any_eq_false.mp hcontrol _ (ofByte_mem_decode hbyte hlow)
  rcases hignored with (rfl | rfl) | rfl
  · exact hrune (by decide)
  · exact hrune (by decide)
  · exact hrune (by decide)

theorem localRedirect_harmless (haccepted : localRedirect parseHost value = .ok target) :
    Harmless target ∧ ∃ parsed, Url.parse parseHost target = some parsed ∧
      parsed.scheme = [] ∧ parsed.host = [] := by
  unfold localRedirect at haccepted
  split at haccepted
  · cases haccepted
    refine ⟨⟨.inl rfl, ?_⟩, ⟨[], [], ascii "/"⟩, rfl, rfl, rfl⟩
    intro byte hbyte
    cases List.mem_singleton.mp (show byte ∈ [slash] from hbyte)
    decide
  · simp only [bind_ok_iff, check_ok_iff, require_ok_iff, pure_ok_iff, Bool.and_eq_true,
      beq_iff_eq, Bool.not_eq_true', decide_eq_true_eq] at haccepted
    obtain ⟨_, ⟨_, hcontrol⟩, parsed, hparsed, _, ⟨⟨⟨hscheme, hhost⟩, hpath⟩, _⟩, rfl⟩ := haccepted
    exact ⟨⟨parse_head hparsed hscheme hpath, not_ignored_of_control hcontrol⟩, parsed,
      hparsed, hscheme, hhost⟩

theorem Harmless.stays_iff (htarget : Harmless target) (base : Origin) :
    Url.resolve readHost base target = some base ↔
      (SlashPair target → NamesOrigin readHost base target) := by
  obtain ⟨hhead, hcounts⟩ := htarget
  cases target with
  | nil => rcases hhead with hhead | hhead <;> cases hhead
  | cons byte rest =>
    have hbyte : byte = slash ∨ byte = 37 := hhead.imp Option.some.inj Option.some.inj
    rcases hbyte with rfl | rfl
    · exact resolve_stays_iff base (by decide) (by decide) (by decide) rest hcounts
    · exact resolve_stays_iff base (by decide) (by decide) (by decide) rest hcounts

/-- The header holds the accepted target with its path cleaned. -/
theorem redirectLocation_accepted (haccepted : localRedirect parseHost value = .ok target) :
    redirectLocation parseHost target = escapeBytes (cleanReference (rooted target)) := by
  obtain ⟨htarget, parsed, hparsed, hscheme, hhost⟩ := localRedirect_harmless haccepted
  have hsome : target ≠ [] := by
    rintro rfl
    rcases htarget.head with hhead | hhead <;> cases hhead
  rw [redirectLocation, if_neg hsome, hparsed]
  dsimp only
  rw [if_pos ⟨hscheme, hhost⟩]

theorem Harmless.cleaned (htarget : Harmless target) :
    Harmless (escapeBytes (cleanReference (rooted target))) := by
  have hcounts : ∀ byte ∈ rooted target, isIgnored byte = false := by
    unfold rooted
    split
    · exact htarget.counts
    · intro byte hbyte
      rcases List.mem_append.mp hbyte with hbyte | hbyte
      · have hnone : (ascii "/api/v1/oidc/").any isIgnored = false := by decide
        exact Bool.eq_false_iff.mpr (List.any_eq_false.mp hnone byte hbyte)
      · exact htarget.counts byte hbyte
  constructor
  · obtain ⟨rest, hrest⟩ := cleanReference_cons (rooted target)
    rw [hrest]
    exact .inl rfl
  · intro byte hbyte
    rcases mem_escapeBytes hbyte with hclean | hignored
    · rcases mem_cleanReference hclean with rfl | hmem
      · decide
      · exact hcounts byte hmem
    · exact hignored

end Accepted

/-- From the origin of the service, the address to return to and the header that is sent
lead back to that origin exactly when the address does not start with two slashes of
either kind, and the first segment that is left of its path does not start with a
backslash, unless what follows names that origin. -/
theorem localRedirect_stays_iff (parseHost readHost : Text → Option Text) (host : Text)
    (port : Option Nat) (value target : Text)
    (haccepted : localRedirect parseHost value = .ok target) :
    (Url.resolve readHost (serviceOrigin host port) target = some (serviceOrigin host port) ∧
      Url.resolve readHost (serviceOrigin host port) (redirectLocation parseHost target) =
        some (serviceOrigin host port)) ↔
      (SlashPair target → NamesOrigin readHost (serviceOrigin host port) target) ∧
      ((∃ rest more, keptSegments ((rooted target).takeWhile (· != 63)) = (92 :: rest) :: more) →
        NamesOrigin readHost (serviceOrigin host port)
          (escapeBytes (cleanReference (rooted target)))) := by
  have htarget := (localRedirect_harmless haccepted).1
  rw [redirectLocation_accepted haccepted, htarget.stays_iff, htarget.cleaned.stays_iff,
    slashPair_cleanReference]

def mailOrigin : Origin := serviceOrigin (ascii "mail.test") none

/-- A page of the service, and the service itself named after a backslash. -/
theorem localRedirect_stays_inbox :
    [ascii "/inbox?page=2", ascii "/\\mail.test/a"].Forall fun target =>
    Url.resolve some mailOrigin target = some mailOrigin ∧
      Url.resolve some mailOrigin (redirectLocation some target) = some mailOrigin := by
  have hcases : ∀ target ∈ [ascii "/inbox?page=2", ascii "/\\mail.test/a"],
      localRedirect some target = .ok target ∧
        (SlashPair target → NamesOrigin some mailOrigin target) ∧
        ((SlashPair (escapeBytes (cleanReference (rooted target)))) →
          NamesOrigin some mailOrigin (escapeBytes (cleanReference (rooted target)))) := by
    decide +kernel
  refine List.forall_iff_forall_mem.mpr fun target htarget => ?_
  obtain ⟨haccepted, hvalue, hheader⟩ := hcases target htarget
  exact (localRedirect_stays_iff some some _ _ target target haccepted).mpr
    ⟨hvalue, fun hkept => hheader ((slashPair_cleanReference _).mpr hkept)⟩

/-- A backslash after the first slash leads to another site, at once or after the
path has been cleaned. -/
theorem backslash_redirect_leaves :
    (localRedirect some (ascii "/\\evil.test/a") = .ok (ascii "/\\evil.test/a") ∧
      redirectLocation some (ascii "/\\evil.test/a") = ascii "/\\evil.test/a" ∧
      Url.resolve some mailOrigin (ascii "/\\evil.test/a") =
        some ⟨ascii "https", ascii "evil.test", none⟩) ∧
      localRedirect some (ascii "/./\\evil.test") = .ok (ascii "/./\\evil.test") ∧
      Url.resolve some mailOrigin (ascii "/./\\evil.test") = some mailOrigin ∧
      redirectLocation some (ascii "/./\\evil.test") = ascii "/\\evil.test" ∧
      Url.resolve some mailOrigin (ascii "/\\evil.test") =
        some ⟨ascii "https", ascii "evil.test", none⟩ := by
  decide +kernel

end GotthMail
