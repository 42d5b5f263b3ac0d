/-
Tables with a primary key, ordered query results and sets collected by key.
An order is any total order that a database may use for its text; a sorted
result is determined by the rows alone.
-/
import Mathlib.Data.List.Lex
import Mathlib.Data.List.Pairwise
import Mathlib.Data.List.Sort

namespace Relational

/-- How a COMMIT ends.  The answer to one that took effect can be lost. -/
inductive CommitEnd where
  | done
  | refused
  | lost
deriving DecidableEq

/-- What the caller of a COMMIT learns, and what is stored afterwards. -/
def CommitEnd.settle {ε α σ : Type} (fault : ε) (value : α) (before after : σ) :
    CommitEnd → Except ε α × σ
  | .done => (.ok value, after)
  | .refused => (.error fault, before)
  | .lost => (.error fault, after)

theorem CommitEnd.settle_ok_iff {ε α σ : Type} {ending : CommitEnd} {fault : ε} {value found : α}
    {before after stored : σ} :
    ending.settle fault value before after = (.ok found, stored) ↔
      ending = .done ∧ value = found ∧ after = stored := by
  cases ending <;> simp [settle]

theorem CommitEnd.settle_error {ε α σ : Type} {ending : CommitEnd} {fault reason : ε} {value : α}
    {before after stored : σ}
    (hsettle : ending.settle fault value before after = (.error reason, stored)) :
    stored = before ∨ ending = .lost ∧ stored = after := by
  cases ending <;> simp_all [settle]

/-- A decidable total order. -/
structure Collation (α : Type) where
  le : α → α → Bool
  total : ∀ first second, le first second = true ∨ le second first = true
  trans : ∀ first second third, le first second = true →
    le second third = true → le first third = true
  antisymm : ∀ first second, le first second = true → le second first = true → first = second

namespace Collation

variable {α β κ : Type}

/-- The order of a linearly ordered type. -/
def natural (α : Type) [LinearOrder α] : Collation α where
  le first second := decide (first ≤ second)
  total first second := by simpa using le_total first second
  trans first second third hfirst hsecond := by
    simp only [decide_eq_true_eq] at hfirst hsecond ⊢
    exact le_trans hfirst hsecond
  antisymm first second hfirst hsecond := by
    simp only [decide_eq_true_eq] at hfirst hsecond
    exact le_antisymm hfirst hsecond

/-- The first component decides, then the second. -/
def lex [DecidableEq α] (major : Collation α) (minor : Collation β) : Collation (α × β) where
  le first second :=
    if first.1 = second.1 then minor.le first.2 second.2
    else major.le first.1 second.1
  total first second := by
    by_cases hsame : first.1 = second.1
    · simpa [hsame] using minor.total first.2 second.2
    · simpa [hsame, Ne.symm hsame] using major.total first.1 second.1
  trans first second third hfirst hsecond := by
    by_cases hleft : first.1 = second.1 <;> by_cases hright : second.1 = third.1
    · simp only [hleft, hright, ↓reduceIte] at hfirst hsecond ⊢
      exact minor.trans _ _ _ hfirst hsecond
    · simpa [hleft, hright] using hsecond
    · simpa [hright ▸ hleft, hright] using hfirst
    · simp only [hleft, hright, ↓reduceIte] at hfirst hsecond
      by_cases houter : first.1 = third.1
      · rw [houter] at hfirst
        exact absurd (major.antisymm _ _ hsecond hfirst) hright
      · simpa [houter] using major.trans _ _ _ hfirst hsecond
  antisymm first second hfirst hsecond := by
    by_cases hsame : first.1 = second.1
    · simp only [hsame, ↓reduceIte] at hfirst hsecond
      exact Prod.ext hsame (minor.antisymm _ _ hfirst hsecond)
    · simp only [hsame, Ne.symm hsame, ↓reduceIte] at hfirst hsecond
      exact absurd (major.antisymm _ _ hfirst hsecond) hsame

/-- The order of distinguishing keys. -/
def comap (order : Collation κ) (key : α → κ) (hkey : Function.Injective key) : Collation α where
  le first second := order.le (key first) (key second)
  total first second := order.total (key first) (key second)
  trans first second third := order.trans (key first) (key second) (key third)
  antisymm _ _ hfirst hsecond := hkey (order.antisymm _ _ hfirst hsecond)

/-- The rows in the order of their keys. -/
def sortBy (order : Collation κ) (key : α → κ) (rows : List α) : List α :=
  rows.insertionSort fun first second => order.le (key first) (key second) = true

variable (order : Collation κ) (key : α → κ)

/-- Rows that stand in the order of their keys. -/
def Sorted (rows : List α) : Prop :=
  rows.Pairwise fun first second => order.le (key first) (key second) = true

theorem sortBy_perm (rows : List α) : (order.sortBy key rows).Perm rows :=
  List.perm_insertionSort _ rows

theorem sortBy_sorted (rows : List α) : order.Sorted key (order.sortBy key rows) := by
  have : Std.Total fun first second : α => order.le (key first) (key second) = true :=
    ⟨fun first second => order.total (key first) (key second)⟩
  have : IsTrans α fun first second : α => order.le (key first) (key second) = true :=
    ⟨fun first second third => order.trans (key first) (key second) (key third)⟩
  exact List.pairwise_insertionSort _ rows

@[simp] theorem mem_sortBy {rows : List α} {row : α} : row ∈ order.sortBy key rows ↔ row ∈ rows :=
  (order.sortBy_perm key rows).mem_iff

theorem sortBy_eq_self {rows : List α} (hrows : order.Sorted key rows) :
    order.sortBy key rows = rows :=
  List.Pairwise.insertionSort_eq hrows

variable {order key}

/-- Sorted rows with distinct keys are determined by their set. -/
theorem Sorted.eq_of_perm {left right : List α} (hleft : order.Sorted key left)
    (hright : order.Sorted key right)
    (hkey : ∀ first ∈ left, ∀ second ∈ left, key first = key second →
      first = second)
    (hperm : left.Perm right) : left = right := by
  apply List.Perm.eq_of_pairwise _ hleft hright hperm
  intro first second hfirst hsecond hle hge
  exact hkey first hfirst second (hperm.mem_iff.mpr hsecond) (order.antisymm _ _ hle hge)

/-- Sorting commutes with a projection through which the key is read. -/
theorem map_sortBy (order : Collation κ) (part : α → β) (key : β → κ) (rows : List α) :
    (order.sortBy (fun row => key (part row)) rows).map part = order.sortBy key (rows.map part) :=
  List.map_insertionSort _ _ part rows fun _ _ _ _ => Iff.rfl

end Collation

/-- One value for each key, the last of them, as a map filled in order and then
ranged over holds them. -/
def distinctBy {α κ : Type} [DecidableEq κ] (key : α → κ) : List α → List α
  | [] => []
  | value :: rest =>
    if rest.any fun other => key other = key value then distinctBy key rest
    else value :: distinctBy key rest

section Distinct

variable {α κ : Type} [DecidableEq κ] {key : α → κ}

variable {values : List α} {value : α}

theorem mem_of_mem_distinctBy (hvalue : value ∈ distinctBy key values) : value ∈ values := by
  induction values with
  | nil => simp [distinctBy] at hvalue
  | cons head rest ih =>
    unfold distinctBy at hvalue
    split at hvalue
    · exact List.mem_cons_of_mem _ (ih hvalue)
    · rcases List.mem_cons.mp hvalue with rfl | hvalue
      · exact List.mem_cons_self
      · exact List.mem_cons_of_mem _ (ih hvalue)

theorem exists_mem_distinctBy (key : α → κ) (hvalue : value ∈ values) :
    ∃ kept ∈ distinctBy key values, key kept = key value := by
  induction values generalizing value with
  | nil => cases hvalue
  | cons head rest ih =>
    unfold distinctBy
    split
    · next hany =>
        rcases List.mem_cons.mp hvalue with rfl | hvalue
        · obtain ⟨other, hother, hkey⟩ := List.any_eq_true.mp hany
          obtain ⟨kept, hkept, hsame⟩ := ih hother
          exact ⟨kept, hkept, hsame.trans (of_decide_eq_true hkey)⟩
        · exact ih hvalue
    · rcases List.mem_cons.mp hvalue with rfl | hvalue
      · exact ⟨value, List.mem_cons_self, rfl⟩
      · obtain ⟨kept, hkept, hsame⟩ := ih hvalue
        exact ⟨kept, List.mem_cons_of_mem _ hkept, hsame⟩

theorem length_distinctBy_le (values : List α) :
    (distinctBy key values).length ≤ values.length := by
  induction values with
  | nil => exact le_refl _
  | cons head rest ih =>
    unfold distinctBy
    split
    · exact ih.trans (Nat.le_succ _)
    · exact Nat.succ_le_succ ih

theorem distinctBy_keys_nodup (values : List α) : ((distinctBy key values).map key).Nodup := by
  induction values with
  | nil => simp [distinctBy]
  | cons head rest ih =>
    unfold distinctBy
    split
    · exact ih
    · next hany =>
        rw [List.map_cons, List.nodup_cons]
        refine ⟨?_, ih⟩
        intro hmem
        obtain ⟨other, hother, hkey⟩ := List.mem_map.mp hmem
        apply hany
        rw [List.any_eq_true]
        exact ⟨other, mem_of_mem_distinctBy hother, by simp [hkey]⟩

theorem distinctBy_nodup (values : List α) : (distinctBy key values).Nodup :=
  List.Nodup.of_map key (distinctBy_keys_nodup values)

/-- Nothing is lost when the keys tell the values apart. -/
theorem mem_distinctBy_iff (hkey : ∀ first ∈ values, ∀ second ∈ values, key first = key second →
      first = second) :
    value ∈ distinctBy key values ↔ value ∈ values := by
  constructor
  · exact mem_of_mem_distinctBy
  · intro hvalue
    obtain ⟨kept, hkept, hsame⟩ := exists_mem_distinctBy key hvalue
    rwa [← hkey kept (mem_of_mem_distinctBy hkept) value hvalue hsame]

end Distinct

/-- Rows with distinct primary keys. -/
structure Table (ρ : Type) {κ : Type} (key : ρ → κ) where
  rows : List ρ
  unique : (rows.map key).Nodup

namespace Table

variable {ρ κ : Type} {key : ρ → κ}

/-- The table without rows. -/
def empty : Table ρ key := ⟨[], List.nodup_nil⟩

theorem eq_of_rows_eq {first second : Table ρ key}
    (hrows : first.rows = second.rows) : first = second := by
  cases first
  cases second
  cases hrows
  rfl

theorem eq_of_key_eq (table : Table ρ key) {first second : ρ}
    (hfirst : first ∈ table.rows) (hsecond : second ∈ table.rows)
    (heq : key first = key second) : first = second :=
  List.inj_on_of_nodup_map table.unique hfirst hsecond heq

variable [DecidableEq κ]

/-- The row with a given key. -/
def find? (table : Table ρ key) (wanted : κ) : Option ρ :=
  table.rows.find? fun row => key row = wanted

/-- Insert one row; `none` is a violation of the primary key. -/
def insert (table : Table ρ key) (row : ρ) : Option (Table ρ key) :=
  if hfresh : key row ∉ table.rows.map key then
    some
      { rows := table.rows ++ [row]
        unique := by
          rw [List.map_append]
          refine List.nodup_append.mpr ⟨table.unique, List.nodup_singleton _, ?_⟩
          intro first hfirst second hsecond heq
          rw [List.map_singleton, List.mem_singleton] at hsecond
          exact hfresh (hsecond ▸ heq ▸ hfirst) }
  else none

def insertAll (table : Table ρ key) (rows : List ρ) : Option (Table ρ key) :=
  rows.foldlM insert table

/-- Change the rows that meet a condition without touching their keys. -/
def update (table : Table ρ key) (condition : ρ → Bool) (change : ρ → ρ)
    (hkey : ∀ row, key (change row) = key row) : Table ρ key where
  rows := table.rows.map fun row => if condition row then change row else row
  unique := by
    rw [List.map_map]
    have hsame : (key ∘ fun row => if condition row then change row else row) =
        key := by
      funext row
      simp only [Function.comp_apply]
      split
      · exact hkey row
      · rfl
    rw [hsame]
    exact table.unique

def keep (table : Table ρ key) (condition : ρ → Bool) : Table ρ key where
  rows := table.rows.filter condition
  unique := table.unique.sublist (List.filter_sublist.map key)

variable {table next : Table ρ key} {wanted : κ} {row : ρ}

theorem find?_eq_some_iff :
    table.find? wanted = some row ↔ row ∈ table.rows ∧ key row = wanted := by
  have hsound : ∀ {found}, table.find? wanted = some found →
      found ∈ table.rows ∧ key found = wanted := by
    intro found hfind
    have hhit := List.find?_some hfind
    simp only [decide_eq_true_eq] at hhit
    exact ⟨List.mem_of_find?_eq_some hfind, hhit⟩
  constructor
  · exact hsound
  · rintro ⟨hrow, hkey⟩
    cases hfind : table.find? wanted with
    | none =>
      have hnone := List.find?_eq_none.mp hfind row hrow
      simp [hkey] at hnone
    | some found =>
      obtain ⟨hmem, hfound⟩ := hsound hfind
      rw [table.eq_of_key_eq hmem hrow (hfound.trans hkey.symm)]

theorem find?_eq_none_iff : table.find? wanted = none ↔ wanted ∉ table.rows.map key := by
  rw [find?, List.find?_eq_none]
  simp

theorem find?_key (hfind : table.find? wanted = some row) : key row = wanted :=
  (find?_eq_some_iff.mp hfind).2

theorem insert_eq_some_iff :
    table.insert row = some next ↔
      table.find? (key row) = none ∧ next.rows = table.rows ++ [row] := by
  rw [find?_eq_none_iff, insert]
  split
  · next hfresh =>
      rw [Option.some.injEq]
      constructor
      · rintro rfl
        exact ⟨hfresh, rfl⟩
      · rintro ⟨_, hrows⟩
        cases next
        subst hrows
        rfl
  · next hfresh =>
      constructor
      · intro hnone
        cases hnone
      · rintro ⟨habsent, _⟩
        exact absurd habsent hfresh

theorem find?_insert (hinsert : table.insert row = some next) (wanted : κ) :
    next.find? wanted = if wanted = key row then some row else table.find? wanted := by
  obtain ⟨hfresh, hrows⟩ := insert_eq_some_iff.mp hinsert
  rw [find?, hrows, List.find?_append]
  by_cases hwanted : wanted = key row
  · subst hwanted
    rw [find?] at hfresh
    simp [hfresh]
  · simp [hwanted, Ne.symm hwanted, find?]

theorem insertAll_eq_some {rows : List ρ} (hinsert : table.insertAll rows = some next) :
    next.rows = table.rows ++ rows := by
  induction rows generalizing table with
  | nil =>
    cases hinsert
    simp
  | cons row rest ih =>
    rw [insertAll, List.foldlM_cons] at hinsert
    obtain ⟨middle, hmiddle, hrest⟩ := Option.bind_eq_some_iff.mp hinsert
    rw [ih hrest, (insert_eq_some_iff.mp hmiddle).2, List.append_assoc, List.singleton_append]

theorem insertAll_isSome (table : Table ρ key) {rows : List ρ} (hrows : (rows.map key).Nodup)
    (hfresh : ∀ row ∈ rows, table.find? (key row) = none) :
    ∃ next, table.insertAll rows = some next := by
  induction rows generalizing table with
  | nil => exact ⟨table, rfl⟩
  | cons row rest ih =>
    have hrow := hfresh row List.mem_cons_self
    have hinsert : ∃ middle, table.insert row = some middle := by
      rw [find?_eq_none_iff] at hrow
      exact ⟨_, by rw [insert, dif_pos hrow]⟩
    obtain ⟨middle, hmiddle⟩ := hinsert
    rw [List.map_cons, List.nodup_cons] at hrows
    obtain ⟨next, hnext⟩ := ih middle hrows.2 (by
      intro other hother
      have hother' := hfresh other (List.mem_cons_of_mem _ hother)
      rw [find?_eq_none_iff] at hother' ⊢
      rw [(insert_eq_some_iff.mp hmiddle).2, List.map_append, List.mem_append]
      rintro (hold | hnew)
      · exact hother' hold
      · rw [List.map_singleton, List.mem_singleton] at hnew
        exact hrows.1 (hnew ▸ List.mem_map_of_mem hother))
    refine ⟨next, ?_⟩
    rw [insertAll, List.foldlM_cons, hmiddle]
    exact hnext

theorem find?_update (table : Table ρ key) (condition : ρ → Bool)
    (change : ρ → ρ) (hkey : ∀ row, key (change row) = key row) (wanted : κ) :
    (table.update condition change hkey).find? wanted = (table.find? wanted).map
        fun row => if condition row then change row else row := by
  have hsame : ∀ row, key (if condition row then change row else row) =
      key row := by
    intro row
    split
    · exact hkey row
    · rfl
  rw [find?, update, List.find?_map]
  congr 2
  funext row
  simp only [Function.comp_apply, hsame]

@[simp] theorem find?_empty (wanted : κ) : (empty : Table ρ key).find? wanted = none := rfl

/-- The rows that a statement with a condition on the key and a further guard
touches. -/
def matching (table : Table ρ key) (wanted : κ) (guard : ρ → Bool) : List ρ :=
  table.rows.filter fun row => decide (key row = wanted) && guard row

theorem matching_eq (table : Table ρ key) (wanted : κ) (guard : ρ → Bool) :
    table.matching wanted guard = ((table.find? wanted).filter guard).toList := by
  rcases table with ⟨rows, hunique⟩
  unfold matching find?
  induction rows with
  | nil => rfl
  | cons head rest ih =>
    have hrest := (List.nodup_cons.mp hunique)
    by_cases hhead : key head = wanted
    · have hnone : ∀ row ∈ rest, ¬ key row = wanted := by
        intro row hrow hkey
        exact hrest.1 (hhead.trans hkey.symm ▸ List.mem_map_of_mem hrow)
      have hempty : rest.filter (fun row => decide (key row = wanted) && guard row) = [] := by
        rw [List.filter_eq_nil_iff]
        intro row hrow
        simp [hnone row hrow]
      cases hguard : guard head <;>
        simp [hhead, hguard, hempty, Option.filter]
    · simp only [hhead, decide_false, Bool.false_and, Bool.false_eq_true,
        not_false_eq_true, List.filter_cons_of_neg, List.find?_cons_of_neg]
      exact ih hrest.2

/-- A statement on one key touches the row under that key or nothing. -/
theorem matching_length_eq_one_iff {guard : ρ → Bool} :
    (table.matching wanted guard).length = 1 ↔
      ∃ row, table.find? wanted = some row ∧ guard row = true := by
  rw [matching_eq]
  cases hfind : table.find? wanted with
  | none => simp
  | some row => cases hguard : guard row <;> simp [hguard, Option.filter]

end Table

/-- A table whose rows also meet a declared constraint. -/
structure Constrained (ρ : Type) {κ : Type} (key : ρ → κ)
    (holds : List ρ → Bool) extends Table ρ key where
  constraint : holds rows = true

namespace Constrained

variable {ρ κ : Type} {key : ρ → κ} {holds : List ρ → Bool}

/-- The table, unless its rows violate the constraint. -/
def accept (table : Table ρ key) : Option (Constrained ρ key holds) :=
  if hholds : holds table.rows = true then some ⟨table, hholds⟩ else none

theorem accept_eq_some_iff {table : Table ρ key} {admitted : Constrained ρ key holds} :
    accept table = some admitted ↔ admitted.toTable = table := by
  unfold accept
  split
  · next hholds =>
      rw [Option.some.injEq]
      constructor
      · rintro rfl
        rfl
      · rintro rfl
        rfl
  · next hholds =>
      constructor
      · intro hnone
        cases hnone
      · rintro rfl
        exact absurd admitted.constraint hholds

theorem eq_of_rows_eq {first second : Constrained ρ key holds}
    (hrows : first.rows = second.rows) : first = second := by
  rcases first with ⟨⟨_, _⟩, _⟩
  rcases second with ⟨⟨_, _⟩, _⟩
  cases hrows
  rfl

end Constrained

end Relational
