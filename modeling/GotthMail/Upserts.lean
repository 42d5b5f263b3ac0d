/-
Statements that insert a row or change the row that already holds its place.  A
place is the value of a column, or of several; what a statement leaves alone is
everything at other places.
-/
import GotthMail.Relational
import Mathlib.Tactic.Tauto

namespace Relational

variable {ρ κ α : Type} {key : ρ → κ} {column : ρ → α}

/-- Two lists of rows that differ only at the given places. -/
def SameOutside (column : ρ → α) (places : α → Prop) (base next : List ρ) : Prop :=
  ∀ row, ¬ places (column row) → (row ∈ base ↔ row ∈ next)

namespace SameOutside

variable {places more : α → Prop} {base middle next : List ρ}

theorem refl (places : α → Prop) (rows : List ρ) :
    SameOutside column places rows rows :=
  fun _ _ => Iff.rfl

theorem trans (hfirst : SameOutside column places base middle)
    (hsecond : SameOutside column places middle next) :
    SameOutside column places base next :=
  fun row hrow => (hfirst row hrow).trans (hsecond row hrow)

theorem mono (hsame : SameOutside column places base next)
    (hmore : ∀ place, places place → more place) :
    SameOutside column more base next :=
  fun row hrow => hsame row fun hplace => hrow (hmore _ hplace)

end SameOutside

variable [DecidableEq κ] [DecidableEq α] {holds : List ρ → Bool}

/-- The row under a key after a deletion. -/
theorem Table.find?_keep (table : Table ρ key) (condition : ρ → Bool) (wanted : κ) :
    (table.keep condition).find? wanted = (table.find? wanted).filter condition := by
  apply Option.ext
  intro row
  rw [Table.find?_eq_some_iff, Table.keep, List.mem_filter, Option.filter_eq_some_iff,
    Table.find?_eq_some_iff]
  tauto

/-- Insert a row, or change the row at its place; `none` is a violated
constraint. -/
def Constrained.upsert (table : Constrained ρ key holds) (column : ρ → α) (row : ρ)
    (change : ρ → ρ) (hkey : ∀ row, key (change row) = key row) :
    Option (Constrained ρ key holds) :=
  if table.rows.any fun other => column other = column row then
    accept (table.update (fun other => column other = column row) change hkey)
  else (table.insert row).bind accept

section Upsert

variable {table next : Constrained ρ key holds} {row : ρ} {change : ρ → ρ}
  {hkey : ∀ row, key (change row) = key row}

/-- The rows after the statement. -/
theorem Constrained.mem_upsert_iff
    (hupsert : table.upsert column row change hkey = some next) {other : ρ} :
    other ∈ next.rows ↔ other ∈ table.rows ∧ column other ≠ column row ∨
      (∃ old ∈ table.rows, column old = column row ∧ change old = other) ∨
      (∀ old ∈ table.rows, column old ≠ column row) ∧ other = row := by
  unfold Constrained.upsert at hupsert
  split at hupsert
  · next hany =>
      rw [accept_eq_some_iff] at hupsert
      obtain ⟨taken, htaken, hplace⟩ := List.any_eq_true.mp hany
      have hsome : ¬ ∀ old ∈ table.rows, column old ≠ column row :=
        fun hnone => hnone taken htaken (of_decide_eq_true hplace)
      rw [hupsert, Table.update, List.mem_map]
      simp only [decide_eq_true_eq]
      constructor
      · rintro ⟨old, hold, hother⟩
        by_cases hsame : column old = column row
        · rw [if_pos hsame] at hother
          exact .inr (.inl ⟨old, hold, hsame, hother⟩)
        · rw [if_neg hsame] at hother
          exact .inl (hother ▸ ⟨hold, hsame⟩)
      · rintro (⟨hold, hne⟩ | ⟨old, hold, hsame, hother⟩ | ⟨hnone, -⟩)
        · exact ⟨other, hold, if_neg hne⟩
        · exact ⟨old, hold, by rw [if_pos hsame, hother]⟩
        · exact absurd hnone hsome
  · next hany =>
      obtain ⟨inserted, hinsert, haccept⟩ := Option.bind_eq_some_iff.mp hupsert
      rw [accept_eq_some_iff] at haccept
      have hnone : ∀ old ∈ table.rows, column old ≠ column row := by
        intro old hold hsame
        exact hany (List.any_eq_true.mpr ⟨old, hold, decide_eq_true hsame⟩)
      rw [haccept, (Table.insert_eq_some_iff.mp hinsert).2, List.mem_append, List.mem_singleton]
      constructor
      · rintro (hold | rfl)
        · exact .inl ⟨hold, hnone other hold⟩
        · exact .inr (.inr ⟨hnone, rfl⟩)
      · rintro (⟨hold, -⟩ | ⟨old, hold, hsame, -⟩ | ⟨-, rfl⟩)
        · exact .inl hold
        · exact absurd hsame (hnone old hold)
        · exact .inr rfl

/-- Nothing changes at other places. -/
theorem Constrained.upsert_sameOutside (hupsert : table.upsert column row change hkey = some next)
    (hcolumn : ∀ old, column (change old) = column old) :
    SameOutside column (· = column row) table.rows next.rows := by
  intro other hother
  rw [mem_upsert_iff hupsert]
  constructor
  · intro hold
    exact .inl ⟨hold, hother⟩
  · rintro (⟨hold, -⟩ | ⟨old, -, hsame, rfl⟩ | ⟨-, rfl⟩)
    · exact hold
    · exact absurd ((hcolumn old).trans hsame) hother
    · exact absurd rfl hother

/-- A statement that would write what is there already changes nothing. -/
theorem Constrained.upsert_same
    (hupsert : table.upsert column row change hkey = some next) {old : ρ}
    (hold : old ∈ table.rows) (hplace : column old = column row)
    (hunique : ∀ other ∈ table.rows, column other = column row → other = old)
    (hchange : change old = old) (other : ρ) : other ∈ table.rows ↔ other ∈ next.rows := by
  rw [mem_upsert_iff hupsert]
  constructor
  · intro hother
    by_cases hsame : column other = column row
    · obtain rfl := hunique other hother hsame
      exact .inr (.inl ⟨other, hother, hsame, hchange⟩)
    · exact .inl ⟨hother, hsame⟩
  · rintro (⟨hother, -⟩ | ⟨found, hfound, hsame, rfl⟩ | ⟨hnone, -⟩)
    · exact hother
    · obtain rfl := hunique found hfound hsame
      rwa [hchange]
    · exact absurd hplace (hnone old hold)

/-- There is a row at the place, and it is the new row or a changed one. -/
theorem Constrained.exists_upsert (hupsert : table.upsert column row change hkey = some next) :
    ∃ other ∈ next.rows, other = row ∨
      ∃ old ∈ table.rows, column old = column row ∧ other = change old := by
  by_cases htaken : ∃ old ∈ table.rows, column old = column row
  · obtain ⟨old, hold, hsame⟩ := htaken
    exact ⟨change old, (mem_upsert_iff hupsert).mpr (.inr (.inl ⟨old, hold, hsame, rfl⟩)),
      .inr ⟨old, hold, hsame, rfl⟩⟩
  · push Not at htaken
    exact ⟨row, (mem_upsert_iff hupsert).mpr (.inr (.inr ⟨htaken, rfl⟩)), .inl rfl⟩

end Upsert

end Relational
