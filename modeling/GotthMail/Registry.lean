/-
Tables built from claims.  Every entry claims a value for a key; the entries
are recorded one after the other and the first malformed or contradictory one
rejects the whole list.  The outcome depends on the set of entries alone.
-/
import Mathlib.Data.Finmap

namespace Registry

variable {α κ β : Type}

/-- Every entry claims something and no two claim different values for a key. -/
structure Consistent (claim : α → Option (κ × β)) (entries : List α) : Prop where
  wellFormed : ∀ entry ∈ entries, ∃ key value, claim entry = some (key, value)
  agree : ∀ first ∈ entries, ∀ second ∈ entries, ∀ key value other,
    claim first = some (key, value) → claim second = some (key, other) → value = other

theorem Consistent.of_subset {claim : α → Option (κ × β)} {left right : List α}
    (hsubset : ∀ entry ∈ left, entry ∈ right)
    (hright : Consistent claim right) : Consistent claim left :=
  ⟨fun entry hentry => hright.wellFormed entry (hsubset entry hentry),
    fun first hfirst second hsecond => hright.agree first
      (hsubset first hfirst) second (hsubset second hsecond)⟩

variable [DecidableEq κ] [DecidableEq β]

/-- Record one claim; a repeated claim changes nothing. -/
def record (claim : α → Option (κ × β)) (table : Finmap fun _ : κ => β)
    (entry : α) : Option (Finmap fun _ : κ => β) :=
  match claim entry with
  | none => none
  | some (key, value) =>
    match table.lookup key with
    | none => some (table.insert key value)
    | some prior => if prior = value then some table else none

/-- The table holds the claims of the entries and no others. -/
def Holds (claim : α → Option (κ × β)) (entries : List α) (table : Finmap fun _ : κ => β) : Prop :=
  ∀ key value, table.lookup key = some value ↔ ∃ entry ∈ entries, claim entry = some (key, value)

variable {claim : α → Option (κ × β)}

variable {next table : Finmap fun _ : κ => β} {entries : List α}

theorem record_eq_some_iff {entry : α} :
    record claim table entry = some next ↔ ∃ key value, claim entry = some (key, value) ∧
        ((table.lookup key = none ∧ next = table.insert key value) ∨
          (table.lookup key = some value ∧ next = table)) := by
  unfold record
  constructor
  · intro hrecord
    split at hrecord
    · cases hrecord
    · next key value hclaim =>
        refine ⟨key, value, hclaim, ?_⟩
        split at hrecord
        · next hlookup =>
            exact .inl ⟨hlookup, (Option.some.inj hrecord).symm⟩
        · next prior hlookup =>
            split at hrecord
            · next heq =>
                exact .inr ⟨heq ▸ hlookup, (Option.some.inj hrecord).symm⟩
            · cases hrecord
  · rintro ⟨key, value, hclaim, ⟨hlookup, rfl⟩ | ⟨hlookup, rfl⟩⟩
    · simp only [hclaim, hlookup]
    · simp only [hclaim, hlookup, ↓reduceIte]

/-- One recorded entry adds exactly its own claim. -/
theorem lookup_record {entry : α} (hrecord : record claim table entry = some next)
    (key : κ) (value : β) :
    next.lookup key = some value ↔
      table.lookup key = some value ∨ claim entry = some (key, value) := by
  obtain ⟨own, claimed, hclaim, ⟨hlookup, rfl⟩ | ⟨hlookup, rfl⟩⟩ := record_eq_some_iff.mp hrecord
  · by_cases hkey : key = own
    · subst hkey
      simp [Finmap.lookup_insert, hlookup, hclaim, eq_comm]
    · rw [Finmap.lookup_insert_of_ne _ hkey, hclaim]
      simp [Ne.symm hkey]
  · constructor
    · exact Or.inl
    · rintro (htable | hown)
      · exact htable
      · rw [hclaim] at hown
        cases hown
        exact hlookup

theorem lookup_foldlM (hfold : entries.foldlM (record claim) table = some next)
    (key : κ) (value : β) :
    next.lookup key = some value ↔ table.lookup key = some value ∨
        ∃ entry ∈ entries, claim entry = some (key, value) := by
  induction entries generalizing table with
  | nil =>
    cases hfold
    simp
  | cons entry rest ih =>
    rw [List.foldlM_cons] at hfold
    obtain ⟨middle, hrecord, hrest⟩ := Option.bind_eq_some_iff.mp hfold
    rw [ih hrest, lookup_record hrecord]
    simp only [List.mem_cons, exists_eq_or_imp, or_assoc]

theorem foldlM_isSome (table : Finmap fun _ : κ => β) (hentries : Consistent claim entries)
    (htable : ∀ entry ∈ entries, ∀ key value prior,
      claim entry = some (key, value) → table.lookup key = some prior → value = prior) :
    ∃ next, entries.foldlM (record claim) table = some next := by
  induction entries generalizing table with
  | nil => exact ⟨table, rfl⟩
  | cons entry rest ih =>
    obtain ⟨key, value, hclaim⟩ := hentries.wellFormed entry List.mem_cons_self
    have hrecord : ∃ middle, record claim table entry = some middle := by
      cases hlookup : table.lookup key with
      | none => exact ⟨_, record_eq_some_iff.mpr ⟨key, value, hclaim, .inl ⟨hlookup, rfl⟩⟩⟩
      | some prior =>
        have hprior := htable entry List.mem_cons_self key value prior hclaim hlookup
        exact ⟨_, record_eq_some_iff.mpr ⟨key, value, hclaim, .inr ⟨hprior ▸ hlookup, rfl⟩⟩⟩
    obtain ⟨middle, hmiddle⟩ := hrecord
    have hrest : Consistent claim rest :=
      ⟨fun other hother => hentries.wellFormed other (List.mem_cons_of_mem _ hother),
        fun first hfirst second hsecond => hentries.agree first
          (List.mem_cons_of_mem _ hfirst) second
          (List.mem_cons_of_mem _ hsecond)⟩
    obtain ⟨next, hnext⟩ := ih middle hrest (by
      intro other hother otherKey otherValue prior hother' hlookup
      rw [lookup_record hmiddle] at hlookup
      rcases hlookup with htable' | hown
      · exact htable other (List.mem_cons_of_mem _ hother) _ _ _ hother' htable'
      · exact hentries.agree other (List.mem_cons_of_mem _ hother) entry
          List.mem_cons_self _ _ _ hother' hown)
    exact ⟨next, by rw [List.foldlM_cons, hmiddle]; exact hnext⟩

theorem consistent_of_foldlM (hfold : entries.foldlM (record claim) table = some next) :
    Consistent claim entries := by
  constructor
  · induction entries generalizing table with
    | nil => simp
    | cons entry rest ih =>
      rw [List.foldlM_cons] at hfold
      obtain ⟨middle, hrecord, hrest⟩ := Option.bind_eq_some_iff.mp hfold
      obtain ⟨key, value, hclaim, _⟩ := record_eq_some_iff.mp hrecord
      intro other hother
      rcases List.mem_cons.mp hother with rfl | hother
      · exact ⟨key, value, hclaim⟩
      · exact ih hrest other hother
  · intro first hfirst second hsecond key value other hvalue hother
    have hleft := (lookup_foldlM hfold key value).mpr (.inr ⟨first, hfirst, hvalue⟩)
    have hright := (lookup_foldlM hfold key other).mpr (.inr ⟨second, hsecond, hother⟩)
    exact Option.some.inj (hleft.symm.trans hright)

/-- Recording succeeds exactly on consistent lists, with their claims. -/
theorem foldlM_eq_some_iff :
    entries.foldlM (record claim) ∅ = some next ↔
      Consistent claim entries ∧ Holds claim entries next := by
  have hholds : ∀ {table}, entries.foldlM (record claim) ∅ = some table →
      Holds claim entries table := by
    intro table hfold key value
    simpa using lookup_foldlM hfold key value
  constructor
  · intro hfold
    exact ⟨consistent_of_foldlM hfold, hholds hfold⟩
  · rintro ⟨hentries, hnext⟩
    obtain ⟨table, htable⟩ := foldlM_isSome ∅ hentries (by simp)
    rw [htable]
    congr 1
    apply Finmap.ext_lookup
    intro key
    apply Option.ext
    intro value
    rw [hholds htable key value, hnext key value]

/-- Order and repetition of the entries are irrelevant. -/
theorem foldlM_congr {left right : List α} (hsame : ∀ entry, entry ∈ left ↔ entry ∈ right) :
    left.foldlM (record claim) ∅ = right.foldlM (record claim) ∅ := by
  apply Option.ext
  intro table
  rw [foldlM_eq_some_iff, foldlM_eq_some_iff]
  have hconsistent : Consistent claim left ↔ Consistent claim right :=
    ⟨.of_subset fun entry => (hsame entry).mpr, .of_subset fun entry => (hsame entry).mp⟩
  simp only [hconsistent, Holds, hsame]

end Registry
