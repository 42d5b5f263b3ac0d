/-
Transactions that work on a snapshot.  What such a transaction has written is
merged, key by key, into the rows that are there when it commits; a row that
somebody else has changed since the snapshot is a conflict, and rows that it has
not touched stay what the others have made of them.
-/
import GotthMail.Relational

namespace Relational

namespace Table

variable {ρ κ : Type} {key : ρ → κ}

instance [DecidableEq ρ] : DecidableEq (Table ρ key) := fun first second =>
  decidable_of_iff (first.rows = second.rows) ⟨eq_of_rows_eq, congrArg rows⟩

variable [DecidableEq κ]

variable {row : ρ} {base current mine next : Table ρ key}

theorem mem_rows_iff {table : Table ρ key} :
    row ∈ table.rows ↔ table.find? (key row) = some row := by
  simp [find?_eq_some_iff]

variable [DecidableEq ρ]

/-- The key holds something else than it did at the snapshot. -/
def altered (base table : Table ρ key) (wanted : κ) : Bool :=
  table.find? wanted != base.find? wanted

/-- A key that both sides have altered. -/
def collides (base mine current : Table ρ key) : Bool :=
  (base.rows ++ mine.rows ++ current.rows).any fun row =>
    base.altered mine (key row) && base.altered current (key row)

/-- The rows of a transaction with what others have made of those it left
alone, and the rows that others have added. -/
def mergedRows (base mine current : Table ρ key) : List ρ :=
  mine.rows.filterMap (fun row =>
      if base.altered mine (key row) then some row else current.find? (key row)) ++
    current.rows.filter fun row => (mine.find? (key row)).isNone && (base.find? (key row)).isNone

/-- What becomes of a row of a transaction. -/
theorem taken_key {taken : ρ} (htaken : (if base.altered mine (key row) then some row
      else current.find? (key row)) = some taken) : key taken = key row := by
  split at htaken
  · cases htaken
    rfl
  · exact find?_key htaken

theorem mergedRows_unique (base mine current : Table ρ key) :
    ((mergedRows base mine current).map key).Nodup := by
  rw [mergedRows, List.map_append, List.nodup_append]
  refine ⟨?_, ?_, ?_⟩
  · have hsublist : ((mine.rows.filterMap fun row => if base.altered mine (key row) then some row
        else current.find? (key row)).map key).Sublist (mine.rows.map key) := by
      generalize mine.rows = rows
      induction rows with
      | nil => exact List.Sublist.slnil
      | cons row rest ih =>
        rw [List.filterMap_cons, List.map_cons]
        split
        · exact ih.cons _
        · next taken htaken =>
            rw [List.map_cons, taken_key htaken]
            exact ih.cons_cons _
    exact mine.unique.sublist hsublist
  · exact current.unique.sublist (List.filter_sublist.map key)
  · intro first hfirst second hsecond heq
    obtain ⟨taken, htaken, rfl⟩ := List.mem_map.mp hfirst
    obtain ⟨row, hrow, hrowTaken⟩ := List.mem_filterMap.mp htaken
    obtain ⟨added, hadded, rfl⟩ := List.mem_map.mp hsecond
    have hnone := (List.mem_filter.mp hadded).2
    simp only [Bool.and_eq_true, Option.isNone_iff_eq_none] at hnone
    rw [← heq, taken_key hrowTaken, mem_rows_iff.mp hrow] at hnone
    cases hnone.1

/-- What a transaction on a snapshot commits; `none` is a conflict. -/
def merge (base mine current : Table ρ key) : Option (Table ρ key) :=
  if collides base mine current then none
  else some ⟨mergedRows base mine current, mergedRows_unique base mine current⟩

theorem not_collides (hfree : collides base mine current = false) (wanted : κ) :
    mine.find? wanted = base.find? wanted ∨ current.find? wanted = base.find? wanted := by
  by_contra hboth
  rw [not_or] at hboth
  -- The key is held by a row of one of the tables, or nobody has altered it.
  have hrow : ∃ row ∈ base.rows ++ mine.rows ++ current.rows, key row = wanted := by
    cases hmine : mine.find? wanted with
    | some row =>
      obtain ⟨hmem, hkey⟩ := find?_eq_some_iff.mp hmine
      exact ⟨row, by simp [hmem], hkey⟩
    | none =>
      cases hbase : base.find? wanted with
      | some row =>
        obtain ⟨hmem, hkey⟩ := find?_eq_some_iff.mp hbase
        exact ⟨row, by simp [hmem], hkey⟩
      | none => exact absurd (hmine.trans hbase.symm) hboth.1
  obtain ⟨row, hmem, rfl⟩ := hrow
  have hclear := List.any_eq_false.mp hfree row hmem
  simp [altered, hboth.1, hboth.2] at hclear

theorem merge_eq_some_iff :
    merge base mine current = some next ↔ collides base mine current = false ∧
        next.rows = mergedRows base mine current := by
  unfold merge
  split
  · next hcollides => simp [hcollides]
  · next hcollides =>
      rw [Option.some.injEq, Bool.eq_false_iff]
      constructor
      · rintro rfl
        exact ⟨hcollides, rfl⟩
      · rintro ⟨-, hrows⟩
        exact eq_of_rows_eq hrows.symm

/-- A key that the transaction has altered is its own, any other is what the
others have made of it. -/
theorem find?_merge (hmerge : merge base mine current = some next) (wanted : κ) :
    next.find? wanted = if mine.find? wanted = base.find? wanted then current.find? wanted
      else mine.find? wanted := by
  apply Option.ext
  intro row
  rw [find?_eq_some_iff, (merge_eq_some_iff.mp hmerge).2]
  simp only [mergedRows, List.mem_append, List.mem_filterMap, List.mem_filter,
    Bool.and_eq_true, Option.isNone_iff_eq_none]
  by_cases hsame : mine.find? wanted = base.find? wanted
  · rw [if_pos hsame]
    constructor
    · rintro ⟨⟨old, hold, htaken⟩ | ⟨hrow, -⟩, rfl⟩
      · have hkey := taken_key htaken
        rw [if_neg (by simp [altered, ← hkey, hsame])] at htaken
        rwa [hkey]
      · exact mem_rows_iff.mp hrow
    · intro hrow
      have hkey := find?_key hrow
      refine ⟨?_, hkey⟩
      cases hmine : mine.find? wanted with
      | some old =>
        obtain ⟨hold, hkeyOld⟩ := find?_eq_some_iff.mp hmine
        refine .inl ⟨old, hold, ?_⟩
        rwa [hkeyOld, if_neg (by simp [altered, hsame])]
      | none =>
        rw [hkey]
        exact .inr ⟨(find?_eq_some_iff.mp hrow).1, hmine, hsame.symm.trans hmine⟩
  · rw [if_neg hsame]
    constructor
    · rintro ⟨⟨old, hold, htaken⟩ | ⟨-, hmine, hbase⟩, rfl⟩
      · have hkey := taken_key htaken
        rw [if_pos (by simp [altered, ← hkey, hsame])] at htaken
        cases htaken
        exact mem_rows_iff.mp hold
      · exact absurd (hmine.trans hbase.symm) hsame
    · intro hrow
      obtain ⟨hmem, rfl⟩ := find?_eq_some_iff.mp hrow
      exact ⟨.inl ⟨row, hmem, by rw [if_pos (by simp [altered, hsame])]⟩, rfl⟩

/-- A transaction that has written nothing leaves what the others have made. -/
theorem mem_merge_self (hmerge : merge base base current = some next) :
    row ∈ next.rows ↔ row ∈ current.rows := by
  rw [mem_rows_iff, mem_rows_iff, find?_merge hmerge, if_pos rfl]

/-- Where nobody else has written, the transaction commits what it has. -/
theorem merge_base (base mine : Table ρ key) : merge base mine base = some mine := by
  rw [merge_eq_some_iff]
  constructor
  · simp [collides, altered]
  · have htaken : ∀ row ∈ mine.rows, (if base.altered mine (key row) then some row
        else base.find? (key row)) = some row := by
      intro row hrow
      split
      · rfl
      · next hsame =>
          simp only [altered, bne_iff_ne, ne_eq, not_not] at hsame
          rw [← hsame, mem_rows_iff.mp hrow]
    have hadded : base.rows.filter (fun row =>
        (mine.find? (key row)).isNone && (base.find? (key row)).isNone) = [] := by
      rw [List.filter_eq_nil_iff]
      intro row hrow
      simp [mem_rows_iff.mp hrow]
    rw [mergedRows, hadded, List.append_nil, List.filterMap_congr htaken, List.filterMap_some]

end Table

namespace Constrained

variable {ρ κ : Type} {key : ρ → κ} {holds : List ρ → Bool} [DecidableEq ρ]

instance : DecidableEq (Constrained ρ key holds) := fun first second =>
  decidable_of_iff (first.rows = second.rows) ⟨eq_of_rows_eq, fun hsame => by rw [hsame]⟩

variable [DecidableEq κ]

/-- The merged rows, when they meet the constraint. -/
def merge (base mine current : Constrained ρ key holds) : Option (Constrained ρ key holds) :=
  Table.merge base.toTable mine.toTable current.toTable >>= accept

theorem merge_toTable {base mine current next : Constrained ρ key holds}
    (hmerge : merge base mine current = some next) :
    Table.merge base.toTable mine.toTable current.toTable = some next.toTable := by
  obtain ⟨table, htable, haccept⟩ := Option.bind_eq_some_iff.mp hmerge
  rw [htable, accept_eq_some_iff.mp haccept]

theorem merge_base (base mine : Constrained ρ key holds) : merge base mine base = some mine := by
  rw [merge, Table.merge_base]
  exact accept_eq_some_iff.mpr rfl

end Constrained

end Relational
