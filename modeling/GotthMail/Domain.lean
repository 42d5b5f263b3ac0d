/-
Domains and envelope addresses in the form in which policy compares them.
The IDNA lookup profile, the address parser, JSON and case folding belong to
libraries outside the mail server; they are parameters of the development.
-/
import GotthMail.Bytes

namespace GotthMail

open Bytes

/-- What an operation reports when it fails: its own message, or an error of
the database driver. -/
inductive Error where
  | text (message : String)
  | sql
deriving DecidableEq, Repr

/-- Continue only when a condition holds. -/
def check (condition : Bool) (message : String) : Except Error Unit :=
  if condition then .ok () else .error (.text message)

@[simp] theorem check_ok_iff {condition : Bool} {message : String} {u : Unit} :
    check condition message = .ok u ↔ condition = true := by
  cases condition <;> simp [check]

/-- Continue with a value that has to be there. -/
def require {α : Type} (value : Option α) (message : String) : Except Error α :=
  match value with
  | some found => .ok found
  | none => .error (.text message)

variable {α : Type} {byte : UInt8} {domain : Text}

@[simp] theorem require_ok_iff {value : Option α} {message : String} {found : α} :
    require value message = .ok found ↔ value = some found := by
  cases value <;> simp [require]

@[simp] theorem bind_ok_iff {β : Type} {first : Except Error α}
    {rest : α → Except Error β} {result : β} :
    first >>= rest = .ok result ↔ ∃ value, first = .ok value ∧ rest value = .ok result := by
  cases first with
  | error reason => simp [bind, Except.bind]
  | ok value => simp [bind, Except.bind]

@[simp] theorem pure_ok_iff {value result : α} :
    (pure value : Except Error α) = .ok result ↔ value = result := by
  simp [pure, Except.pure]

theorem forM_ok {ι ε : Type} {items : List ι} {action : ι → Except ε Unit}
    (hall : forM items action = .ok ()) : ∀ item ∈ items, action item = .ok () := by
  induction items with
  | nil => exact nofun
  | cons item rest ih =>
    rw [List.forM_cons] at hall
    cases hitem : action item with
    | error reason => cases hitem ▸ hall
    | ok =>
      rw [hitem] at hall
      exact List.forall_mem_cons.mpr ⟨hitem, ih hall⟩

/-- A loop over rows keeps what each of its steps extends. -/
theorem foldlM_induct {σ ρ : Type} {step : σ → ρ → Except Error σ} {Inv : List ρ → σ → Prop}
    (hstep : ∀ {seen found row next}, Inv seen found →
      step found row = .ok next → Inv (seen ++ [row]) next)
    {rows seen : List ρ} {found final : σ} (hfound : Inv seen found)
    (hfold : rows.foldlM step found = .ok final) : Inv (seen ++ rows) final := by
  induction rows generalizing seen found with
  | nil =>
    rw [List.foldlM_nil, pure_ok_iff] at hfold
    rwa [← hfold, List.append_nil]
  | cons row rest ih =>
    rw [List.foldlM_cons, bind_ok_iff] at hfold
    rcases hfold with ⟨next, hnext, hrest⟩
    simpa using ih (hstep hfound hnext) hrest

structure MailAddress where
  name : Text
  address : Text
deriving DecidableEq, Repr

/-- The IDNA lookup profile, the address parser, the decoder of JSON arrays of
strings, the lower case of a string and the comparison under case folding. -/
structure Platform where
  toASCII : Text → Option Text
  parseAddress : Text → Option MailAddress
  decodeStrings : Text → Option (List Text)
  lower : Text → Text
  equalFold : Text → Text → Bool

def dot : UInt8 := 46

def atSign : UInt8 := 64

/-- Drop one final dot. -/
def trimRoot (domain : Text) : Text :=
  if domain.getLast? = some dot then domain.dropLast else domain

def containsDots : Text → Bool
  | first :: second :: rest =>
    (first == dot && second == dot) || containsDots (second :: rest)
  | _ => false

/-- The checks on a lower-case name without its root dot. -/
def wellFormedDomain (domain : Text) : Bool :=
  domain != [] && domain.head? != some dot && domain.getLast? != some dot && !containsDots domain

namespace Platform

variable (p : Platform)

/-- The exact lower-case name used by policy comparisons. -/
def normalizeDomain (raw : Text) : Except Error Text :=
  if trimSpace raw = [] then .error (.text "domain required")
  else
    match p.toASCII (trimSpace raw) with
    | none => .error (.text "invalid domain")
    | some encoded =>
      let domain := trimRoot (toLower encoded)
      if wellFormedDomain domain then .ok domain
      else .error (.text "invalid domain")

def maxEnvelopeRecipientBytes : Nat := 254

/-- The normalized domain of a strict envelope address. -/
def recipientDomain (raw : Text) : Except Error Text :=
  let trimmed := trimSpace raw
  if trimmed.length = 0 ∨ maxEnvelopeRecipientBytes < trimmed.length then
    .error (.text "invalid envelope recipient")
  else
    match lastIndexByte trimmed atSign with
    | none => .error (.text "invalid envelope recipient")
    | some index =>
      if index = 0 ∨ index = trimmed.length - 1 then
        .error (.text "invalid envelope recipient")
      else
        match p.normalizeDomain (trimmed.drop (index + 1)) with
        | .error _ => .error (.text "invalid envelope recipient")
        | .ok domain =>
          let canonical := trimmed.take (index + 1) ++ domain
          if p.parseAddress canonical = some ⟨[], canonical⟩ then .ok domain
          else .error (.text "invalid envelope recipient")

/-- The canonical address, with the local part kept, and its domain. -/
def normalizeQueueRecipient (raw : Text) : Except Error (Text × Text) :=
  match p.recipientDomain raw with
  | .error _ => .error (.text "invalid queue recipient")
  | .ok domain =>
    let trimmed := trimSpace raw
    let local_ := match lastIndexByte trimmed atSign with
      | none => []
      | some index => trimmed.take (index + 1)
    .ok (local_ ++ domain, domain)

/-- The null reverse path, or a canonical address. -/
def normalizeQueueSender (raw : Text) : Except Error Text :=
  if raw = ascii "<>" then .ok raw
  else
    match p.normalizeQueueRecipient raw with
    | .error _ => .error (.text "invalid queue envelope sender")
    | .ok (address, _) => .ok address

end Platform

/-- Letters, digits, hyphens and dots in lower case. -/
def isHostByte (byte : UInt8) : Bool :=
  decide (97 ≤ byte ∧ byte ≤ 122) || decide (48 ≤ byte ∧ byte ≤ 57) || byte == 45 || byte == dot

/-- What the lookup profile promises of a name it returns: letters, digits and
hyphens only, the DNS length limit, and that the name is its own result. -/
structure Platform.Lookup (p : Platform) : Prop where
  strict : ∀ raw encoded, p.toASCII raw = some encoded →
    ∀ byte ∈ toLower encoded, isHostByte byte = true
  dnsLength : ∀ raw encoded, p.toASCII raw = some encoded →
    (trimRoot (toLower encoded)).length ≤ 253
  stable : ∀ raw encoded, p.toASCII raw = some encoded →
    p.toASCII (trimRoot (toLower encoded)) = some (trimRoot (toLower encoded))

theorem isHostByte_graphic (hbyte : isHostByte byte = true) : isGraphic byte = true := by
  simp only [isHostByte, Bool.or_eq_true, decide_eq_true_eq, beq_iff_eq, dot,
    UInt8.le_iff_toNat_le, ← UInt8.toNat_inj, UInt8.reduceToNat] at hbyte
  simp only [isGraphic, decide_eq_true_eq, UInt8.le_iff_toNat_le, UInt8.reduceToNat]
  omega

theorem isHostByte_ne_atSign (hbyte : isHostByte byte = true) : byte ≠ atSign := by
  rintro rfl
  revert hbyte
  decide

theorem toLower_of_host (hdomain : ∀ byte ∈ domain, isHostByte byte = true) :
    toLower domain = domain := by
  rw [toLower]
  conv_rhs => rw [← List.map_id domain]
  apply List.map_congr_left
  intro byte hbyte
  have hhost := hdomain byte hbyte
  rw [if_neg]
  · rfl
  · rintro ⟨hlow, hhigh⟩
    simp only [isHostByte, Bool.or_eq_true, decide_eq_true_eq, beq_iff_eq, dot,
      UInt8.le_iff_toNat_le, ← UInt8.toNat_inj, UInt8.reduceToNat] at hhost
    simp only [UInt8.le_iff_toNat_le, UInt8.reduceToNat] at hlow hhigh
    omega

theorem mem_of_mem_trimRoot (hbyte : byte ∈ trimRoot domain) : byte ∈ domain := by
  unfold trimRoot at hbyte
  split at hbyte
  · exact List.dropLast_subset domain hbyte
  · exact hbyte

theorem length_trimRoot_le (domain : Text) : (trimRoot domain).length ≤ domain.length := by
  unfold trimRoot
  split
  · rw [List.length_dropLast]
    omega
  · exact le_refl _

theorem trimRoot_of_wellFormed (hdomain : wellFormedDomain domain = true) :
    trimRoot domain = domain := by
  simp only [wellFormedDomain, Bool.and_eq_true, bne_iff_ne] at hdomain
  rw [trimRoot, if_neg hdomain.1.2]

namespace Platform

variable {p : Platform}

variable {domain raw : Text}

theorem normalizeDomain_ok_iff :
    p.normalizeDomain raw = .ok domain ↔
      ∃ encoded, trimSpace raw ≠ [] ∧ p.toASCII (trimSpace raw) = some encoded ∧
        domain = trimRoot (toLower encoded) ∧ wellFormedDomain domain = true := by
  unfold normalizeDomain
  constructor
  · intro hraw
    split at hraw
    · cases hraw
    · next hempty =>
        split at hraw
        · cases hraw
        · next encoded hencoded =>
            dsimp only at hraw
            split at hraw
            · next hdomain =>
                cases hraw
                exact ⟨encoded, hempty, hencoded, rfl, hdomain⟩
            · cases hraw
  · rintro ⟨encoded, hempty, hencoded, rfl, hdomain⟩
    simp only [if_neg hempty, hencoded, hdomain, ↓reduceIte]

theorem normalizeDomain_ne_nil (hraw : p.normalizeDomain raw = .ok domain) : domain ≠ [] := by
  obtain ⟨_, _, _, _, hdomain⟩ := normalizeDomain_ok_iff.mp hraw
  rintro rfl
  cases hdomain

/-- An accepted envelope address, split at its last at sign. -/
structure Envelope (p : Platform) (raw before after domain : Text) : Prop where
  trimmed : trimSpace raw = before ++ atSign :: after
  bounded : (before ++ atSign :: after).length ≤ maxEnvelopeRecipientBytes
  before_ne : before ≠ []
  after_ne : after ≠ []
  after_plain : atSign ∉ after
  normalized : p.normalizeDomain after = .ok domain
  parsed : p.parseAddress (before ++ atSign :: domain) = some ⟨[], before ++ atSign :: domain⟩

theorem Envelope.recipientDomain {before after : Text}
    (henvelope : p.Envelope raw before after domain) : p.recipientDomain raw = .ok domain := by
  have hindex := lastIndexByte_append before after henvelope.after_plain
  have hafter := List.length_pos_iff.mpr henvelope.after_ne
  have hbefore := List.length_pos_iff.mpr henvelope.before_ne
  have hbounded := henvelope.bounded
  have htake : (before ++ atSign :: after).take (before.length + 1) = before ++ [atSign] := by
    rw [List.take_length_add_append]
    rfl
  have hdrop : (before ++ atSign :: after).drop (before.length + 1) = after := by
    rw [List.drop_length_add_append]
    rfl
  unfold Platform.recipientDomain
  simp only [henvelope.trimmed, hindex, htake, hdrop, henvelope.normalized,
    List.append_assoc, List.singleton_append, henvelope.parsed, ↓reduceIte]
  rw [if_neg, if_neg]
  · simp only [List.length_append, List.length_cons]
    omega
  · simp only [List.length_append, List.length_cons] at hbounded ⊢
    omega

theorem recipientDomain_ok_iff :
    p.recipientDomain raw = .ok domain ↔ ∃ before after, p.Envelope raw before after domain := by
  constructor
  · intro hraw
    unfold recipientDomain at hraw
    dsimp only at hraw
    split at hraw
    · cases hraw
    · next hbounds =>
        split at hraw
        · cases hraw
        · next index hindex =>
            split at hraw
            · cases hraw
            · next hends =>
                split at hraw
                · cases hraw
                · next normalized hnormalized =>
                    split at hraw
                    · next hparsed =>
                        cases hraw
                        obtain ⟨hsplit, hplain⟩ := lastIndexByte_split hindex
                        refine ⟨_, _, hsplit, ?_, ?_, ?_, hplain, hnormalized, ?_⟩
                        · rw [← hsplit]
                          omega
                        · intro hnil
                          have hlength := congrArg List.length hnil
                          rw [List.length_take, List.length_nil] at hlength
                          omega
                        · intro hnil
                          have hlength := congrArg List.length hnil
                          have htotal := congrArg List.length hsplit
                          simp only [List.length_append, List.length_cons,
                            List.length_take, List.length_drop, List.length_nil] at hlength htotal
                          omega
                        · rw [lastIndexByte_take hindex, List.append_assoc,
                            List.singleton_append] at hparsed
                          exact hparsed
                    · cases hraw
  · rintro ⟨before, after, henvelope⟩
    exact henvelope.recipientDomain

theorem Envelope.normalizeQueueRecipient {before after : Text}
    (henvelope : p.Envelope raw before after domain) :
    p.normalizeQueueRecipient raw = .ok (before ++ atSign :: domain, domain) := by
  have hindex := lastIndexByte_append before after henvelope.after_plain
  unfold Platform.normalizeQueueRecipient
  simp only [henvelope.recipientDomain, henvelope.trimmed, hindex]
  rw [List.take_length_add_append]
  simp

theorem normalizeQueueRecipient_ok_iff {canonical : Text} :
    p.normalizeQueueRecipient raw = .ok (canonical, domain) ↔
      ∃ before after, p.Envelope raw before after domain ∧
        canonical = before ++ atSign :: domain := by
  constructor
  · intro hraw
    cases hdomain : p.recipientDomain raw with
    | error reason =>
      rw [Platform.normalizeQueueRecipient, hdomain] at hraw
      cases hraw
    | ok found =>
      obtain ⟨before, after, henvelope⟩ := recipientDomain_ok_iff.mp hdomain
      rw [henvelope.normalizeQueueRecipient] at hraw
      cases hraw
      exact ⟨before, after, henvelope, rfl⟩
  · rintro ⟨before, after, henvelope, rfl⟩
    exact henvelope.normalizeQueueRecipient

theorem normalizeQueueRecipient_recipientDomain {canonical : Text}
    (hraw : p.normalizeQueueRecipient raw = .ok (canonical, domain)) :
    p.recipientDomain raw = .ok domain := by
  obtain ⟨_, _, henvelope, _⟩ := normalizeQueueRecipient_ok_iff.mp hraw
  exact henvelope.recipientDomain

section Lookup

variable (hp : p.Lookup)

include hp

variable {domain raw canonical : Text}

theorem Lookup.host (hraw : p.normalizeDomain raw = .ok domain) :
    ∀ byte ∈ domain, isHostByte byte = true := by
  obtain ⟨encoded, _, hencoded, rfl, _⟩ := normalizeDomain_ok_iff.mp hraw
  intro byte hbyte
  exact hp.strict _ _ hencoded byte (mem_of_mem_trimRoot hbyte)

theorem Lookup.length_le (hraw : p.normalizeDomain raw = .ok domain) : domain.length ≤ 253 := by
  obtain ⟨encoded, _, hencoded, rfl, _⟩ := normalizeDomain_ok_iff.mp hraw
  exact hp.dnsLength _ _ hencoded

theorem Lookup.normalizeDomain_idempotent (hraw : p.normalizeDomain raw = .ok domain) :
    p.normalizeDomain domain = .ok domain := by
  have hhost := hp.host hraw
  have htrim : trimSpace domain = domain :=
    trimSpace_of_graphic fun byte hbyte => isHostByte_graphic (hhost byte hbyte)
  have hlower := toLower_of_host hhost
  obtain ⟨encoded, _, hencoded, hdomain, hwell⟩ := normalizeDomain_ok_iff.mp hraw
  refine normalizeDomain_ok_iff.mpr ⟨domain, ?_, ?_, ?_, hwell⟩
  · rw [htrim]
    exact normalizeDomain_ne_nil hraw
  · rw [htrim, hdomain]
    exact hp.stable _ _ hencoded
  · rw [hlower, trimRoot_of_wellFormed hwell]

theorem Lookup.atSign_not_mem (hraw : p.normalizeDomain raw = .ok domain) : atSign ∉ domain :=
  fun hmem => isHostByte_ne_atSign (hp.host hraw atSign hmem) rfl

/-- A canonical address that is short enough is its own canonical form. -/
theorem Lookup.normalizeQueueRecipient_idempotent
    (hraw : p.normalizeQueueRecipient raw = .ok (canonical, domain))
    (hlength : canonical.length ≤ maxEnvelopeRecipientBytes) :
    p.normalizeQueueRecipient canonical = .ok (canonical, domain) := by
  obtain ⟨before, after, henvelope, rfl⟩ := normalizeQueueRecipient_ok_iff.mp hraw
  have hdomain := henvelope.normalized
  refine normalizeQueueRecipient_ok_iff.mpr ⟨before, domain, ?_, rfl⟩
  exact
    { trimmed := trimSpace_replace_tail henvelope.trimmed henvelope.before_ne (by decide)
        (fun byte hbyte => isHostByte_graphic (hp.host hdomain byte hbyte))
      bounded := hlength
      before_ne := henvelope.before_ne
      after_ne := normalizeDomain_ne_nil hdomain
      after_plain := hp.atSign_not_mem hdomain
      normalized := hp.normalizeDomain_idempotent hdomain
      parsed := henvelope.parsed }

theorem Lookup.trimSpace_canonical
    (hraw : p.normalizeQueueRecipient raw = .ok (canonical, domain)) :
    trimSpace canonical = canonical := by
  obtain ⟨before, after, henvelope, rfl⟩ := normalizeQueueRecipient_ok_iff.mp hraw
  exact trimSpace_replace_tail henvelope.trimmed henvelope.before_ne (by decide) (fun byte hbyte =>
      isHostByte_graphic (hp.host henvelope.normalized byte hbyte))

/-- A canonical address that is accepted again is within the limit. -/
theorem Lookup.length_le_of_accepted {again : Text × Text}
    (hraw : p.normalizeQueueRecipient raw = .ok (canonical, domain))
    (hagain : p.normalizeQueueRecipient canonical = .ok again) :
    canonical.length ≤ maxEnvelopeRecipientBytes := by
  obtain ⟨left, right, hsecond, _⟩ := normalizeQueueRecipient_ok_iff.mp hagain
  rw [← hp.trimSpace_canonical hraw, hsecond.trimmed]
  exact hsecond.bounded

/-- Accepting a canonical address means accepting it as it is. -/
theorem Lookup.normalizeQueueRecipient_of_accepted {again : Text × Text}
    (hraw : p.normalizeQueueRecipient raw = .ok (canonical, domain))
    (hagain : p.normalizeQueueRecipient canonical = .ok again) :
    p.normalizeQueueRecipient canonical = .ok (canonical, domain) :=
  hp.normalizeQueueRecipient_idempotent hraw (hp.length_le_of_accepted hraw hagain)

theorem Lookup.normalizeQueueSender_of_accepted {sender : Text}
    (hraw : p.normalizeQueueSender raw = .ok sender) (hagain : sender ≠ ascii "<>" →
      ∃ again, p.normalizeQueueRecipient sender = .ok again) :
    p.normalizeQueueSender sender = .ok sender := by
  unfold Platform.normalizeQueueSender at hraw ⊢
  split at hraw
  · next hnull =>
      cases hraw
      rw [if_pos hnull]
  · split at hraw
    · cases hraw
    · next address domain haddress =>
        cases hraw
        by_cases hnull : sender = ascii "<>"
        · rw [if_pos hnull]
        · obtain ⟨again, hsecond⟩ := hagain hnull
          rw [if_neg hnull, hp.normalizeQueueRecipient_of_accepted haddress hsecond]

end Lookup

end Platform

/-- The characters of an unquoted local part, dots included. -/
def isAtomByte (byte : UInt8) : Bool :=
  decide (97 ≤ byte ∧ byte ≤ 122) || decide (65 ≤ byte ∧ byte ≤ 90) ||
    decide (48 ≤ byte ∧ byte ≤ 57) || byte == dot || (ascii "!#$%&'*+-/=?^_~|").elem byte

/-- The strings between the quotes of an array written without blanks or
escapes. -/
def plainStrings : List Text → Option (List Text)
  | [value, [93]] => some [value]
  | value :: [44] :: rest => (value :: ·) <$> plainStrings rest
  | _ => none

/-- The profile and the parser on plain ASCII names and unquoted addresses,
arrays without escapes and the case folding of ASCII. -/
def asciiPlatform : Platform where
  toASCII raw :=
    if (toLower raw).all isHostByte ∧ (trimRoot (toLower raw)).length ≤ 253 then
      some (toLower raw)
    else none
  parseAddress raw :=
    match lastIndexByte raw atSign with
    | none => none
    | some index =>
      if wellFormedDomain (raw.take index) ∧ (raw.take index).all isAtomByte ∧
          wellFormedDomain (raw.drop (index + 1)) ∧
          (raw.drop (index + 1)).all isHostByte then
        some ⟨[], raw⟩
      else none
  decodeStrings document :=
    match document.splitOn 34 with
    | [91] :: rest => plainStrings rest
    | _ => none
  lower := toLower
  equalFold left right := toLower left == toLower right

theorem asciiPlatform_lookup : asciiPlatform.Lookup := by
  have hinvert : ∀ {raw encoded}, asciiPlatform.toASCII raw = some encoded →
      encoded = toLower raw ∧ (∀ byte ∈ toLower raw, isHostByte byte = true) ∧
        (trimRoot (toLower raw)).length ≤ 253 := by
    intro raw encoded hraw
    simp only [asciiPlatform] at hraw
    split at hraw
    · next hchecks =>
        cases hraw
        exact ⟨rfl, List.all_eq_true.mp hchecks.1, hchecks.2⟩
    · cases hraw
  constructor
  · intro raw encoded hraw
    obtain ⟨rfl, hhost, _⟩ := hinvert hraw
    rwa [toLower_of_host hhost]
  · intro raw encoded hraw
    obtain ⟨rfl, hhost, hlength⟩ := hinvert hraw
    rwa [toLower_of_host hhost]
  · intro raw encoded hraw
    obtain ⟨rfl, hhost, hlength⟩ := hinvert hraw
    rw [toLower_of_host hhost]
    have hroot : ∀ byte ∈ trimRoot (toLower raw), isHostByte byte = true :=
      fun byte hbyte => hhost byte (mem_of_mem_trimRoot hbyte)
    have hshort : (trimRoot (trimRoot (toLower raw))).length ≤ 253 :=
      (length_trimRoot_le _).trans hlength
    simp only [asciiPlatform, toLower_of_host hroot]
    rw [if_pos ⟨List.all_eq_true.mpr hroot, hshort⟩]

/-- A canonical address is its own canonical form exactly when it is within the
limit, which is checked before the domain gets its longer spelling. -/
theorem canonical_fixed_iff {p : Platform} (hp : p.Lookup) {raw canonical : Text}
    (hraw : p.normalizeQueueRecipient raw = .ok (canonical, domain)) :
    p.normalizeQueueRecipient canonical = .ok (canonical, domain) ↔
      canonical.length ≤ Platform.maxEnvelopeRecipientBytes := by
  constructor
  · exact hp.length_le_of_accepted hraw
  · exact hp.normalizeQueueRecipient_idempotent hraw

theorem canonical_fixed_iff_short :
    asciiPlatform.normalizeQueueRecipient (ascii " a@Example ") =
        .ok (ascii "a@example", ascii "example") ∧
      (asciiPlatform.normalizeQueueRecipient (ascii "a@example") =
          .ok (ascii "a@example", ascii "example") ↔
        (ascii "a@example").length ≤ Platform.maxEnvelopeRecipientBytes) := by
  have hraw : asciiPlatform.normalizeQueueRecipient (ascii " a@Example ") =
      .ok (ascii "a@example", ascii "example") := by decide +kernel
  exact ⟨hraw, canonical_fixed_iff asciiPlatform_lookup hraw⟩

/-- The name `ü.example`, of ten bytes. -/
def umlautDomain : Text := 0xC3 :: 0xBC :: ascii ".example"

/-- The profile also knows one international name. -/
def umlautPlatform : Platform :=
  { asciiPlatform with
    toASCII := fun raw =>
      if raw = umlautDomain then some (ascii "xn--tda.example")
      else asciiPlatform.toASCII raw }

theorem umlautPlatform_lookup : umlautPlatform.Lookup := by
  have hcases : ∀ {raw encoded}, umlautPlatform.toASCII raw = some encoded →
      encoded = ascii "xn--tda.example" ∨
        asciiPlatform.toASCII raw = some encoded := by
    intro raw encoded hraw
    simp only [umlautPlatform] at hraw
    split at hraw
    · exact .inl (Option.some.inj hraw).symm
    · exact .inr hraw
  constructor
  · intro raw encoded hraw
    obtain rfl | hplain := hcases hraw
    · decide +kernel
    · exact asciiPlatform_lookup.strict _ _ hplain
  · intro raw encoded hraw
    obtain rfl | hplain := hcases hraw
    · decide +kernel
    · exact asciiPlatform_lookup.dnsLength _ _ hplain
  · intro raw encoded hraw
    obtain rfl | hplain := hcases hraw
    · decide +kernel
    · have hstable := asciiPlatform_lookup.stable _ _ hplain
      have hhost := asciiPlatform_lookup.strict _ _ hplain
      have hother : trimRoot (toLower encoded) ≠ umlautDomain := by
        intro hsame
        have hbyte : (0xC3 : UInt8) ∈ trimRoot (toLower encoded) := by
          rw [hsame]
          exact List.mem_cons_self
        exact absurd (hhost _ (mem_of_mem_trimRoot hbyte)) (by decide)
      simp only [umlautPlatform]
      rw [if_neg hother, hstable]

/-- An address of 254 bytes whose canonical form has 259 and is refused. -/
theorem canonical_refused :
    umlautPlatform.Lookup ∧ umlautPlatform.normalizeQueueRecipient
          (List.replicate 243 97 ++ atSign :: umlautDomain) =
        .ok (List.replicate 243 97 ++ ascii "@xn--tda.example",
          ascii "xn--tda.example") ∧
      umlautPlatform.normalizeQueueRecipient
          (List.replicate 243 97 ++ ascii "@xn--tda.example") =
        .error (.text "invalid queue recipient") := by
  refine ⟨umlautPlatform_lookup, ?_, ?_⟩
  · decide +kernel
  · decide +kernel

end GotthMail
