/-
Maps as a program keeps them: distinct keys, and an order of iteration that
nothing determines.
-/
import Mathlib.Data.List.AList

namespace Ranges

abbrev Mapping (κ ν : Type) := AList fun _ : κ => ν

/-- An order in which a loop may visit the keys of a map. -/
structure Order (κ : Type) where
  arrange : List κ → List κ
  perm : ∀ keys, (arrange keys).Perm keys

def Order.stored (κ : Type) : Order κ := ⟨id, fun _ => .refl _⟩

variable {κ ν : Type} [DecidableEq κ] {order : Order κ} {mapping : Mapping κ ν}
  {key : κ} {value : ν}

/-- What a loop over a map visits. -/
def Order.range (order : Order κ) (mapping : Mapping κ ν) : List (κ × ν) :=
  (order.arrange mapping.keys).filterMap fun key =>
    (mapping.lookup key).map fun value => (key, value)

theorem Order.mem_range : (key, value) ∈ order.range mapping ↔ mapping.lookup key = some value := by
  simp only [range, List.mem_filterMap, Option.map_eq_some_iff, Prod.mk.injEq]
  constructor
  · rintro ⟨_, -, _, hlookup, rfl, rfl⟩
    exact hlookup
  · intro hlookup
    refine ⟨key, ?_, value, hlookup, rfl, rfl⟩
    rw [(order.perm _).mem_iff, ← AList.mem_keys, ← AList.lookup_isSome, hlookup]
    rfl

theorem Order.range_empty (order : Order κ) : order.range (∅ : Mapping κ ν) = [] := by
  refine List.eq_nil_iff_forall_not_mem.mpr ?_
  rintro ⟨key, value⟩ hmem
  cases order.mem_range.mp hmem

/-- A map filled with entries one after the other. -/
def fill (mapping : Mapping κ ν) (entries : List (κ × ν)) : Mapping κ ν :=
  entries.foldl (fun mapping entry => mapping.insert entry.1 entry.2) mapping

theorem lookup_insert_eq (mapping : Mapping κ ν) (key other : κ) (value : ν) :
    (mapping.insert other value).lookup key =
      if key = other then some value else mapping.lookup key := by
  split
  · next hsame =>
      subst hsame
      exact AList.lookup_insert mapping
  · next hne => exact AList.lookup_insert_ne hne

theorem lookup_single {other : κ} {found : ν}
    (hlookup : ((∅ : Mapping κ ν).insert other value).lookup key = some found) :
    key = other ∧ found = value := by
  rw [lookup_insert_eq] at hlookup
  split at hlookup
  · next hsame => exact ⟨hsame, (Option.some.inj hlookup).symm⟩
  · cases hlookup

theorem lookup_fill_some {entries : List (κ × ν)}
    (hlookup : (fill mapping entries).lookup key = some value) :
    (key, value) ∈ entries ∨ mapping.lookup key = some value := by
  induction entries generalizing mapping with
  | nil => exact .inr hlookup
  | cons entry rest ih =>
    rcases ih hlookup with hmem | hbefore
    · exact .inl (List.mem_cons_of_mem _ hmem)
    · rw [lookup_insert_eq] at hbefore
      split at hbefore
      · next hsame =>
          cases hbefore
          rw [hsame]
          exact .inl List.mem_cons_self
      · exact .inr hbefore

theorem lookup_fill_isSome {entries : List (κ × ν)}
    (hkey : key ∈ entries.map Prod.fst ∨ (mapping.lookup key).isSome = true) :
    ((fill mapping entries).lookup key).isSome = true := by
  induction entries generalizing mapping with
  | nil => exact hkey.resolve_left List.not_mem_nil
  | cons entry rest ih =>
    apply ih
    rw [lookup_insert_eq]
    split
    · exact .inr rfl
    · next hne =>
        rcases hkey with hmem | hsome
        · rw [List.map_cons, List.mem_cons] at hmem
          exact .inl (hmem.resolve_left hne)
        · exact .inr hsome

/-- A map filled in any order with one entry for each key of another. -/
theorem lookup_fill_range {ω : Type} (order : Order κ) (mapping : Mapping κ ν) (change : κ → ν → ω)
    (key : κ) : (fill (∅ : Mapping κ ω) ((order.range mapping).map fun entry =>
      (entry.1, change entry.1 entry.2))).lookup key = (mapping.lookup key).map (change key) := by
  generalize hentries : (order.range mapping).map (fun entry =>
    (entry.1, change entry.1 entry.2)) = entries
  have hfound {value : ω} (hlookup : (fill (∅ : Mapping κ ω) entries).lookup key = some value) :
      (mapping.lookup key).map (change key) = some value := by
    rcases lookup_fill_some hlookup with hmem | hmem
    · rw [← hentries] at hmem
      obtain ⟨⟨_, old⟩, hold, heq⟩ := List.mem_map.mp hmem
      cases heq
      rw [order.mem_range.mp hold, Option.map_some]
    · cases hmem
  cases hlookup : (fill (∅ : Mapping κ ω) entries).lookup key with
  | some value => exact (hfound hlookup).symm
  | none =>
    cases hvalue : mapping.lookup key with
    | none => rfl
    | some value =>
      have hkey : key ∈ entries.map Prod.fst := by
        rw [← hentries, List.map_map]
        exact List.mem_map.mpr ⟨(key, value), order.mem_range.mpr hvalue, rfl⟩
      have hsome : ((fill (∅ : Mapping κ ω) entries).lookup key).isSome = true :=
        lookup_fill_isSome (.inl hkey)
      rw [hlookup] at hsome
      cases hsome

end Ranges
