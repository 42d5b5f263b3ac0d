/-
References in URLs, by the two grammars that meet in a redirect.  The server reads
a reference by the generic syntax; a browser resolves it by the URL standard, where
a backslash is a slash and tabs and line breaks do not count.
-/
import GotthMail.Framing

namespace Url

open Bytes Framing

variable {parseHost : Text → Option Text} {text : Text} {byte : UInt8}

def slash : UInt8 := 47

def isLetter (byte : UInt8) : Bool :=
  decide (65 ≤ byte ∧ byte ≤ 90) || decide (97 ≤ byte ∧ byte ≤ 122)

def isNumeral (byte : UInt8) : Bool := decide (48 ≤ byte ∧ byte ≤ 57)

/-- The bytes of a scheme after its first letter. -/
def isSchemeByte (byte : UInt8) : Bool :=
  isLetter byte || isNumeral byte || byte == 43 || byte == 45 || byte == 46

def hexValue (byte : UInt8) : Option UInt8 :=
  if 48 ≤ byte ∧ byte ≤ 57 then some (byte - 48)
  else if 65 ≤ byte ∧ byte ≤ 70 then some (byte - 55)
  else if 97 ≤ byte ∧ byte ≤ 102 then some (byte - 87)
  else none

/-- What stands before and after the first occurrence of a byte. -/
def cut (byte : UInt8) (text : Text) : Text × Option Text :=
  (text.takeWhile (· != byte), (text.dropWhile (· != byte)).tail?)

/-- What stands before and after the last occurrence of a byte. -/
def cutLast (byte : UInt8) (text : Text) : Option Text × Text :=
  match lastIndexByte text byte with
  | none => (none, text)
  | some index => (some (text.take index), text.drop (index + 1))

section Generic

/-- Replace the percent escapes; none if one of them is malformed. -/
def unescape : Text → Option Text
  | [] => some []
  | byte :: rest =>
    if byte = 37 then
      match rest with
      | first :: second :: more => do
          let high ← hexValue first
          let low ← hexValue second
          return (high * 16 + low) :: (← unescape more)
      | _ => none
    else (unescape rest).map (byte :: ·)

/-- The scheme of a reference and what follows it.  Only a reference that starts
with a colon is malformed. -/
def getScheme (text : Text) : Option (Text × Text) :=
  if text.head? = some 58 then none
  else
    match text.dropWhile isSchemeByte with
    | 58 :: rest =>
      if text.head?.any isLetter then some (text.takeWhile isSchemeByte, rest)
      else some ([], text)
    | _ => some ([], text)

def isUserinfoByte (byte : UInt8) : Bool :=
  isLetter byte || isNumeral byte || (ascii "-._:~!$&'()*+,;=%@").contains byte

/-- What a parsed reference tells about where it leads. -/
structure Reference where
  scheme : Text
  host : Text
  path : Text
deriving DecidableEq

/-- The host of an authority, with a given reading of nonempty hosts. -/
def parseAuthority (parseHost : Text → Option Text) (authority : Text) :
    Option Text := do
  let (user, host) := cutLast 64 authority
  let host ← if host = [] then some [] else parseHost host
  match user with
  | none => return host
  | some user =>
    if user.all isUserinfoByte then
      let _ ← unescape user
      return host
    else none

/-- The path with its authority, if there is one. -/
def parseHierarchy (parseHost : Text → Option Text) (scheme rest : Text) :
    Option Reference := do
  if (ascii "//").isPrefixOf rest && !((ascii "///").isPrefixOf rest && scheme == []) then
    let host ← parseAuthority parseHost ((rest.drop 2).takeWhile (· != slash))
    let path ← unescape ((rest.drop 2).dropWhile (· != slash))
    return ⟨scheme, host, path⟩
  else
    let path ← unescape rest
    return ⟨scheme, [], path⟩

/-- A reference without its fragment. -/
def parseBare (parseHost : Text → Option Text) (text : Text) : Option Reference := do
  if text.any fun byte => byte < 32 || byte == 127 then none
  else if text = ascii "*" then return ⟨[], [], text⟩
  else
    let (scheme, rest) ← getScheme text
    let rest := (cut 63 rest).1
    if rest.head? = some slash then parseHierarchy parseHost scheme rest
    else if scheme ≠ [] then return ⟨scheme, [], []⟩
    else if ((rest.takeWhile (· != slash)).contains 58) then none
    else parseHierarchy parseHost scheme rest

def parse (parseHost : Text → Option Text) (text : Text) : Option Reference := do
  let (bare, fragment) := cut 35 text
  let reference ← parseBare parseHost bare
  let _ ← unescape (fragment.getD [])
  return reference

end Generic

section Redirects

/-- The parts of a path between its slashes. -/
def segments : Text → List Text
  | [] => [[]]
  | byte :: rest =>
    if byte = slash then [] :: segments rest
    else
      match segments rest with
      | [] => [[byte]]
      | first :: more => (byte :: first) :: more

def joinSegments : List Text → Text
  | [] => []
  | [segment] => segment
  | segment :: rest => segment ++ slash :: joinSegments rest

/-- Keep a segment, or follow it if it is a dot or two. -/
def follow (kept : List Text) (segment : Text) : List Text :=
  if segment = [] ∨ segment = ascii "." then kept
  else if segment = ascii ".." then kept.dropLast
  else kept ++ [segment]

/-- The segments of a path that are left when the dots have been followed. -/
def keptSegments (path : Text) : List Text := (segments path).foldl follow []

/-- The shortest form of a rooted path. -/
def clean (path : Text) : Text := slash :: joinSegments (keptSegments path)

/-- Clean the path of a reference; a slash at its end and the query stay. -/
def cleanReference (text : Text) : Text :=
  let path := clean (text.takeWhile (· != 63))
  let trailing := (text.takeWhile (· != 63)).getLast? = some slash ∧ path.getLast? ≠ some slash
  (if trailing then path ++ [slash] else path) ++ text.dropWhile (· != 63)

/-- Bytes outside of ASCII as percent escapes. -/
def escapeBytes (text : Text) : Text :=
  text.flatMap fun byte => if byte < 128 then [byte] else 37 :: encodeHex [byte]

end Redirects

section Standard

structure Origin where
  scheme : Text
  host : Text
  port : Option Nat
deriving DecidableEq

/-- Control characters and blanks, which do not count at the ends. -/
def isTrimmed (byte : UInt8) : Bool := decide (byte ≤ 32)

/-- Tabs and line breaks, which do not count anywhere. -/
def isIgnored (byte : UInt8) : Bool := byte == 9 || byte == 10 || byte == 13

def trimEnd : Text → Text
  | [] => []
  | byte :: rest =>
    match trimEnd rest with
    | [] => if isTrimmed byte then [] else [byte]
    | kept => byte :: kept

/-- The bytes of a reference that count. -/
def counted (text : Text) : Text :=
  (trimEnd (text.dropWhile isTrimmed)).filter fun byte => !isIgnored byte

def isSlash (byte : UInt8) : Bool := byte == slash || byte == 92

/-- Two slashes of either kind at the beginning. -/
def SlashPair (text : Text) : Prop :=
  ∃ first second rest, text = first :: second :: rest ∧ isSlash first = true ∧ isSlash second = true

instance (text : Text) : Decidable (SlashPair text) :=
  match text with
  | [] => isFalse (by rintro ⟨_, _, _, heq, _⟩; cases heq)
  | [_] => isFalse (by rintro ⟨_, _, _, heq, _⟩; cases heq)
  | first :: second :: rest =>
    if hslashes : isSlash first = true ∧ isSlash second = true then
      isTrue ⟨first, second, rest, rfl, hslashes⟩
    else isFalse (by rintro ⟨_, _, _, heq, hpair⟩; cases heq; exact hslashes hpair)

/-- The port after a host, where the default one does not count. -/
def parsePort (default : Nat) (digits : Text) : Option (Option Nat) :=
  let value := digits.foldl (fun value byte => value * 10 + (byte.toNat - 48)) 0
  if digits.all isNumeral then
    if digits = [] then some none
    else if 65535 < value then none
    else if value = default then some none
    else some (some value)
  else none

/-- Cut the port off a host; a colon in brackets belongs to the host. -/
def cutPort (inside : Bool) : Text → Text × Option Text
  | [] => ([], none)
  | byte :: rest =>
    if byte = 58 ∧ inside = false then ([], some rest)
    else
      let (host, port) := cutPort (if byte = 91 then true else
        if byte = 93 then false else inside) rest
      (byte :: host, port)

/-- The origin that an authority names, with a given reading of hosts. -/
def authorityOrigin (parseHost : Text → Option Text) (scheme : Text) (default : Nat)
    (text : Text) : Option Origin := do
  let authority := text.takeWhile fun byte => !(isSlash byte || byte == 63 || byte == 35)
  let (host, port) := cutPort false (cutLast 64 authority).2
  if host = [] then none
  else
    let host ← parseHost host
    let port ← parsePort default (port.getD [])
    return ⟨scheme, host, port⟩

/-- The schemes that have hosts, with their default ports. -/
def specialPort (scheme : Text) : Option Nat :=
  [(ascii "https", 443), (ascii "http", 80), (ascii "wss", 443), (ascii "ws", 80),
    (ascii "ftp", 21)].lookup scheme

/-- Where a reference without a scheme leads from a base. -/
def resolveRelative (parseHost : Text → Option Text) (base : Origin) (text : Text) :
    Option Origin :=
  match text with
  | first :: second :: rest =>
    if isSlash first && isSlash second then
      authorityOrigin parseHost base.scheme ((specialPort base.scheme).getD 0)
        (rest.dropWhile isSlash)
    else some base
  | _ => some base

/-- Where a reference leads from a page of a base with a special scheme.  Of a URL
without a host only the scheme is kept. -/
def resolve (parseHost : Text → Option Text) (base : Origin) (text : Text) :
    Option Origin :=
  let text := counted text
  match text.dropWhile isSchemeByte with
  | 58 :: rest =>
    if text.head?.any isLetter then
      let scheme := toLower (text.takeWhile isSchemeByte)
      match specialPort scheme with
      | none => some ⟨scheme, [], none⟩
      | some default =>
        if scheme = base.scheme ∧ ¬(ascii "//").isPrefixOf rest then
          resolveRelative parseHost base rest
        else authorityOrigin parseHost scheme default (rest.dropWhile isSlash)
    else resolveRelative parseHost base text
  | _ => resolveRelative parseHost base text

end Standard

section Resolved

theorem trimEnd_cons (hbyte : isTrimmed byte = false) (rest : Text) :
    trimEnd (byte :: rest) = byte :: trimEnd rest := by
  rw [trimEnd]
  cases trimEnd rest with
  | nil => simp [hbyte]
  | cons first more => rfl

theorem trimEnd_isPrefix (text : Text) : trimEnd text <+: text := by
  induction text with
  | nil => exact List.prefix_refl _
  | cons byte rest ih =>
    rw [trimEnd]
    split
    · split
      · exact List.nil_prefix
      · exact List.cons_prefix_cons.mpr ⟨rfl, List.nil_prefix⟩
    · exact List.cons_prefix_cons.mpr ⟨rfl, ih⟩

/-- A text whose first byte counts loses nothing but its end. -/
theorem counted_cons (hbyte : isTrimmed byte = false) (rest : Text)
    (hcounts : ∀ other ∈ byte :: rest, isIgnored other = false) :
    counted (byte :: rest) = byte :: trimEnd rest := by
  rw [counted, List.dropWhile_cons_of_neg (by simp [hbyte]), trimEnd_cons hbyte,
    List.filter_eq_self]
  intro other hother
  have hmem : other ∈ byte :: rest := by
    rcases List.mem_cons.mp hother with rfl | hrest
    · exact List.mem_cons_self
    · exact List.mem_cons_of_mem _ ((trimEnd_isPrefix rest).subset hrest)
  rw [hcounts other hmem]
  rfl

theorem isSlash_not_trimmed (hbyte : isSlash byte = true) : isTrimmed byte = false := by
  simp only [isSlash, Bool.or_eq_true, beq_iff_eq] at hbyte
  rcases hbyte with rfl | rfl
  · decide
  · decide

theorem slashPair_trimEnd (byte : UInt8) (rest : Text) :
    SlashPair (byte :: trimEnd rest) ↔ SlashPair (byte :: rest) := by
  constructor
  · rintro ⟨first, second, more, heq, hfirst, hsecond⟩
    obtain ⟨rfl, hrest⟩ := List.cons.inj heq
    obtain ⟨tail, htail⟩ := trimEnd_isPrefix rest
    exact ⟨byte, second, more ++ tail, by rw [← htail, hrest]; rfl, hfirst, hsecond⟩
  · rintro ⟨first, second, more, heq, hfirst, hsecond⟩
    obtain ⟨rfl, rfl⟩ := List.cons.inj heq
    exact ⟨byte, second, trimEnd more,
      by rw [trimEnd_cons (isSlash_not_trimmed hsecond)], hfirst, hsecond⟩

/-- A reference that starts with a byte of no scheme is a relative one. -/
theorem resolve_relative (base : Origin) (hbyte : isTrimmed byte = false)
    (hscheme : isSchemeByte byte = false) (hcolon : byte ≠ 58) (rest : Text)
    (hcounts : ∀ other ∈ byte :: rest, isIgnored other = false) :
    resolve parseHost base (byte :: rest) =
      resolveRelative parseHost base (byte :: trimEnd rest) := by
  rw [resolve, counted_cons hbyte rest hcounts]
  rw [List.dropWhile_cons_of_neg (by simp [hscheme])]
  split
  · rename_i heq
    cases heq
    exact absurd rfl hcolon
  · rfl

theorem resolveRelative_base (base : Origin) (hpair : ¬SlashPair text) :
    resolveRelative parseHost base text = some base := by
  unfold resolveRelative
  split
  · rename_i first second rest
    rw [if_neg]
    intro hslashes
    rw [Bool.and_eq_true] at hslashes
    exact hpair ⟨first, second, rest, rfl, hslashes⟩
  · rfl

/-- What stands after the slashes at the beginning of a reference names the base. -/
def NamesOrigin (parseHost : Text → Option Text) (base : Origin) (text : Text) : Prop :=
  authorityOrigin parseHost base.scheme ((specialPort base.scheme).getD 0)
    ((counted text).dropWhile isSlash) = some base

instance (base : Origin) (text : Text) : Decidable (NamesOrigin parseHost base text) :=
  inferInstanceAs (Decidable (_ = _))

/-- A relative reference leads back to its base exactly when it does not start with two
slashes, or names the base after them. -/
theorem resolve_stays_iff (base : Origin) (hbyte : isTrimmed byte = false)
    (hscheme : isSchemeByte byte = false) (hcolon : byte ≠ 58) (rest : Text)
    (hcounts : ∀ other ∈ byte :: rest, isIgnored other = false) :
    resolve parseHost base (byte :: rest) = some base ↔
      (SlashPair (byte :: rest) → NamesOrigin parseHost base (byte :: rest)) := by
  rw [resolve_relative base hbyte hscheme hcolon rest hcounts]
  by_cases hpair : SlashPair (byte :: rest)
  · rw [NamesOrigin, counted_cons hbyte rest hcounts]
    obtain ⟨first, second, more, heq, hfirst, hsecond⟩ := (slashPair_trimEnd byte rest).mpr hpair
    simp [heq, resolveRelative, hfirst, hsecond, hpair]
  · rw [resolveRelative_base base (mt (slashPair_trimEnd byte rest).mp hpair)]
    exact iff_of_true rfl fun hslashes => absurd hslashes hpair

end Resolved

section Parsed

variable {reference : Reference}

theorem unescape_head {out : Text} {byte : UInt8} (hout : unescape text = some out)
    (hhead : out.head? = some byte) : text.head? = some byte ∨ text.head? = some 37 := by
  cases text with
  | nil =>
    cases hout
    cases hhead
  | cons first rest =>
    unfold unescape at hout
    split at hout
    · rename_i hpercent
      exact .inr (congrArg some hpercent)
    · obtain ⟨more, _, rfl⟩ := Option.map_eq_some_iff.mp hout
      exact .inl hhead

theorem head?_cut (byte : UInt8) (text : Text) {first : UInt8}
    (hfirst : (cut byte text).1.head? = some first) : text.head? = some first := by
  change (text.takeWhile (· != byte)).head? = some first at hfirst
  obtain ⟨tail, htail⟩ := List.takeWhile_prefix (· != byte) (l := text)
  cases hkept : text.takeWhile (· != byte) with
  | nil =>
    rw [hkept] at hfirst
    cases hfirst
  | cons kept more =>
    rw [hkept] at hfirst htail
    rw [← htail]
    exact hfirst

theorem getScheme_none {rest : Text} (hscheme : getScheme text = some ([], rest)) :
    rest = text := by
  unfold getScheme at hscheme
  split at hscheme
  · cases hscheme
  · split at hscheme
    · split at hscheme
      · rename_i hletter
        obtain ⟨hempty, _⟩ := Prod.mk.inj (Option.some.inj hscheme)
        cases text with
        | nil => cases hletter
        | cons byte more =>
          have hletter : isLetter byte = true := hletter
          rw [List.takeWhile_cons_of_pos (by simp [isSchemeByte, hletter])] at hempty
          cases hempty
      · exact (Prod.mk.inj (Option.some.inj hscheme)).2.symm
    · exact (Prod.mk.inj (Option.some.inj hscheme)).2.symm

theorem parseHierarchy_scheme {scheme rest : Text}
    (hparse : parseHierarchy parseHost scheme rest = some reference) :
    scheme = reference.scheme := by
  unfold parseHierarchy at hparse
  split at hparse
  · obtain ⟨_, _, hparse⟩ := Option.bind_eq_some_iff.mp hparse
    obtain ⟨_, _, hparse⟩ := Option.bind_eq_some_iff.mp hparse
    cases hparse
    rfl
  · obtain ⟨_, _, hparse⟩ := Option.bind_eq_some_iff.mp hparse
    cases hparse
    rfl

theorem parseHierarchy_relative {scheme rest : Text} (hslash : rest.head? ≠ some slash)
    (hparse : parseHierarchy parseHost scheme rest = some reference) :
    unescape rest = some reference.path := by
  unfold parseHierarchy at hparse
  split at hparse
  · rename_i hauthority
    rw [Bool.and_eq_true] at hauthority
    obtain ⟨tail, rfl⟩ := List.isPrefixOf_iff_prefix.mp hauthority.1
    exact absurd rfl hslash
  · obtain ⟨_, hpath, hparse⟩ := Option.bind_eq_some_iff.mp hparse
    cases hparse
    exact hpath

/-- A relative reference with an absolute path starts with a slash or an escape. -/
theorem parse_head (hparse : parse parseHost text = some reference)
    (hscheme : reference.scheme = []) (hpath : reference.path.head? = some slash) :
    text.head? = some slash ∨ text.head? = some 37 := by
  simp only [parse, Option.bind_eq_bind, Option.bind_eq_some_iff, Option.pure_def,
    Option.some.injEq] at hparse
  obtain ⟨_, hbare, _, _, rfl⟩ := hparse
  refine Or.imp (head?_cut 35 text) (head?_cut 35 text) ?_
  generalize (cut 35 text).1 = bare at hbare ⊢
  unfold parseBare at hbare
  split at hbare
  · cases hbare
  split at hbare
  · rename_i hstar
    cases hbare
    rw [hstar] at hpath
    exact absurd hpath (by decide)
  obtain ⟨⟨scheme, rest⟩, hget, hbare⟩ := Option.bind_eq_some_iff.mp hbare
  dsimp only at hbare
  split at hbare
  · rename_i hslash
    have hempty := parseHierarchy_scheme hbare
    rw [hscheme] at hempty
    subst hempty
    rw [getScheme_none hget] at hslash
    exact .inl (head?_cut 63 bare hslash)
  · rename_i hslash
    split at hbare
    · rename_i hsome
      cases hbare
      exact absurd hscheme hsome
    · rename_i hnone
      split at hbare
      · cases hbare
      · rw [not_not.mp hnone] at hget hbare
        rw [getScheme_none hget] at hslash hbare
        have hout := parseHierarchy_relative hslash hbare
        refine Or.imp (head?_cut 63 bare) (head?_cut 63 bare) ?_
        exact unescape_head hout hpath

end Parsed

section Cleaned

variable {path : Text}

theorem mem_segments {segment : Text} (hsegment : segment ∈ segments text)
    (hbyte : byte ∈ segment) : byte ∈ text := by
  induction text generalizing segment with
  | nil =>
    rw [segments, List.mem_singleton] at hsegment
    rwa [hsegment] at hbyte
  | cons first rest ih =>
    rw [segments] at hsegment
    split at hsegment
    · rcases List.mem_cons.mp hsegment with rfl | hsegment
      · cases hbyte
      · exact List.mem_cons_of_mem _ (ih hsegment hbyte)
    · cases hrest : segments rest with
      | nil =>
        rw [hrest, List.mem_singleton] at hsegment
        rw [hsegment, List.mem_singleton] at hbyte
        exact hbyte ▸ List.mem_cons_self
      | cons head more =>
        rw [hrest] at hsegment
        rcases List.mem_cons.mp hsegment with rfl | hsegment
        · rcases List.mem_cons.mp hbyte with rfl | hbyte
          · exact List.mem_cons_self
          · exact List.mem_cons_of_mem _ (ih (hrest ▸ List.mem_cons_self) hbyte)
        · exact List.mem_cons_of_mem _ (ih (hrest ▸ List.mem_cons_of_mem _ hsegment) hbyte)

theorem segments_slash {segment : Text} (hsegment : segment ∈ segments text) :
    slash ∉ segment := by
  induction text generalizing segment with
  | nil => simp [List.mem_singleton.mp hsegment]
  | cons first rest ih =>
    rw [segments] at hsegment
    split at hsegment
    · rcases List.mem_cons.mp hsegment with rfl | hsegment
      · simp
      · exact ih hsegment
    · next hfirst =>
      cases hrest : segments rest with
      | nil =>
        rw [hrest, List.mem_singleton] at hsegment
        simpa [hsegment] using Ne.symm hfirst
      | cons head more =>
        rw [hrest] at hsegment ih
        rcases List.mem_cons.mp hsegment with rfl | hsegment
        · simpa [Ne.symm hfirst] using ih List.mem_cons_self
        · exact ih (List.mem_cons_of_mem _ hsegment)

theorem mem_joinSegments {kept : List Text} (hbyte : byte ∈ joinSegments kept) :
    byte = slash ∨ ∃ segment ∈ kept, byte ∈ segment := by
  induction kept using joinSegments.induct with
  | case1 => cases hbyte
  | case2 segment => exact .inr ⟨segment, List.mem_cons_self, hbyte⟩
  | case3 segment rest hrest ih =>
    rw [joinSegments, List.mem_append, List.mem_cons] at hbyte
    · rcases hbyte with hbyte | rfl | hbyte
      · exact .inr ⟨segment, List.mem_cons_self, hbyte⟩
      · exact .inl rfl
      · obtain hslash | ⟨other, hother, hmem⟩ := ih hbyte
        · exact .inl hslash
        · exact .inr ⟨other, List.mem_cons_of_mem _ hother, hmem⟩
    · exact hrest

theorem mem_foldl_follow {kept more : List Text} {segment : Text}
    (hsegment : segment ∈ more.foldl follow kept) :
    segment ∈ kept ∨ segment ∈ more ∧ segment ≠ [] := by
  induction more generalizing kept with
  | nil => exact .inl hsegment
  | cons first rest ih =>
    rcases ih hsegment with hkept | hrest
    · unfold follow at hkept
      split at hkept
      · exact .inl hkept
      · next hsome =>
        split at hkept
        · exact .inl ((List.dropLast_sublist kept).mem hkept)
        · rcases List.mem_append.mp hkept with hkept | hnew
          · exact .inl hkept
          · obtain rfl := List.mem_singleton.mp hnew
            exact .inr ⟨List.mem_cons_self, (not_or.mp hsome).1⟩
    · exact .inr ⟨List.mem_cons_of_mem _ hrest.1, hrest.2⟩

/-- A segment that is left is not empty and does not start with a slash. -/
theorem keptSegments_head {segment : Text} (hsegment : segment ∈ keptSegments path) :
    ∃ first rest, segment = first :: rest ∧ first ≠ slash := by
  rcases mem_foldl_follow hsegment with hnone | ⟨hmem, hsome⟩
  · cases hnone
  · obtain ⟨first, rest, rfl⟩ := List.exists_cons_of_ne_nil hsome
    refine ⟨first, rest, rfl, ?_⟩
    rintro rfl
    exact segments_slash hmem List.mem_cons_self

/-- A cleaned path has the bytes of the path, and slashes. -/
theorem mem_clean (hbyte : byte ∈ clean path) : byte = slash ∨ byte ∈ path := by
  rcases List.mem_cons.mp hbyte with hslash | hbyte
  · exact .inl hslash
  · obtain hslash | ⟨segment, hsegment, hmem⟩ := mem_joinSegments hbyte
    · exact .inl hslash
    · rcases mem_foldl_follow hsegment with hnone | hsegment
      · cases hnone
      · exact .inr (mem_segments hsegment.1 hmem)

theorem mem_cleanReference (hbyte : byte ∈ cleanReference text) : byte = slash ∨ byte ∈ text := by
  rw [cleanReference, List.mem_append] at hbyte
  rcases hbyte with hbyte | hbyte
  · have hclean : byte = slash ∨ byte ∈ clean (text.takeWhile (· != 63)) := by
      split at hbyte
      · rcases List.mem_append.mp hbyte with hbyte | hbyte
        · exact .inr hbyte
        · exact .inl (List.mem_singleton.mp hbyte)
      · exact .inr hbyte
    rcases hclean with hslash | hclean
    · exact .inl hslash
    · exact (mem_clean hclean).imp_right fun hmem => (List.takeWhile_prefix _).subset hmem
  · exact .inr ((List.dropWhile_suffix _).subset hbyte)

theorem cleanReference_cons (text : Text) : ∃ rest, cleanReference text = slash :: rest := by
  unfold cleanReference clean
  dsimp only
  split
  · exact ⟨_, rfl⟩
  · exact ⟨_, rfl⟩

theorem escapeBytes_append (left right : Text) :
    escapeBytes (left ++ right) = escapeBytes left ++ escapeBytes right := List.flatMap_append

/-- A cleaned reference starts with two slashes exactly when the first segment that is
left starts with a backslash. -/
theorem slashPair_cleanReference (text : Text) :
    SlashPair (escapeBytes (cleanReference text)) ↔
      ∃ rest more, keptSegments (text.takeWhile (· != 63)) = (92 :: rest) :: more := by
  have hslash : escapeBytes [slash] = [slash] := by decide
  cases hkept : keptSegments (text.takeWhile (· != 63)) with
  | nil =>
    have hclean : cleanReference text = [slash] ++ text.dropWhile (· != 63) := by
      simp [cleanReference, clean, hkept, joinSegments]
    refine iff_of_false ?_ (by simp)
    rw [hclean, escapeBytes_append, hslash]
    rintro ⟨first, second, rest, heq, _, hsecond⟩
    cases hquery : text.dropWhile (· != 63) with
    | nil => simp [hquery, escapeBytes] at heq
    | cons mark query =>
      obtain rfl : mark = 63 := by
        have hhead := List.head?_dropWhile_not (· != 63) text
        rw [hquery] at hhead
        simpa using hhead
      have hmark : escapeBytes [63] = [63] := by decide
      rw [hquery, ← List.singleton_append (x := (63 : UInt8)), escapeBytes_append, hmark] at heq
      obtain ⟨_, heq⟩ := List.cons.inj heq
      obtain ⟨rfl, _⟩ := List.cons.inj heq
      exact absurd hsecond (by decide)
  | cons segment more =>
    obtain ⟨first, rest, rfl, hfirst⟩ := keptSegments_head (hkept ▸ List.mem_cons_self)
    obtain ⟨tail, htail⟩ : ∃ tail, cleanReference text = [slash] ++ ([first] ++ tail) := by
      rw [cleanReference, clean, hkept]
      cases more with
      | nil =>
        rw [joinSegments]
        split <;> exact ⟨_, rfl⟩
      | cons next others =>
        rw [joinSegments]
        · split <;> exact ⟨_, rfl⟩
        · simp
    rw [htail, escapeBytes_append, escapeBytes_append, hslash]
    constructor
    · rintro ⟨_, second, others, heq, _, hsecond⟩
      obtain ⟨_, heq⟩ := List.cons.inj heq
      by_cases hlow : first < 128
      · rw [escapeBytes, List.flatMap_singleton, if_pos hlow] at heq
        obtain ⟨rfl, _⟩ := List.cons.inj heq
        simp only [isSlash, beq_eq_false_iff_ne.mpr hfirst, Bool.false_or, beq_iff_eq] at hsecond
        exact ⟨rest, more, by rw [hsecond]⟩
      · rw [escapeBytes, List.flatMap_singleton, if_neg hlow] at heq
        obtain ⟨rfl, _⟩ := List.cons.inj heq
        exact absurd hsecond (by decide)
    · rintro ⟨rest, more, heq⟩
      obtain ⟨rfl, _⟩ := List.cons.inj (List.cons.inj heq).1
      exact ⟨slash, 92, _, rfl, by decide, by decide⟩

theorem isIgnored_of_lowerHex (hbyte : isLowerHex byte = true) : isIgnored byte = false := by
  by_contra hignored
  simp only [isIgnored, Bool.not_eq_false, Bool.or_eq_true, beq_iff_eq] at hignored
  rcases hignored with (rfl | rfl) | rfl
  · exact absurd hbyte (by decide)
  · exact absurd hbyte (by decide)
  · exact absurd hbyte (by decide)

theorem mem_escapeBytes (hbyte : byte ∈ escapeBytes text) :
    byte ∈ text ∨ isIgnored byte = false := by
  obtain ⟨other, hother, hmem⟩ := List.mem_flatMap.mp hbyte
  split at hmem
  · exact .inl (List.mem_singleton.mp hmem ▸ hother)
  · rcases List.mem_cons.mp hmem with rfl | hdigit
    · exact .inr (by decide)
    · exact .inr (isIgnored_of_lowerHex (isLowerHex_of_mem_encodeHex hdigit))

end Cleaned

end Url
