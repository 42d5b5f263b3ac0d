/-
Reading a changing collection page by page.  A page is found by looking for the
last key of the page before it; what a whole reading returns depends on whether
that key is still there.
-/
import Mathlib.Order.WellFounded
import Mathlib.Data.List.Pairwise
import Mathlib.Data.List.Basic

namespace Paging

variable {κ : Type} [LinearOrder κ]

/-- What comes after the cursor, nothing when it is missing. -/
def after : Option κ → List κ → List κ
  | none, keys => keys
  | some _, [] => []
  | some cursor, key :: rest => if key = cursor then rest else after (some cursor) rest

/-- The next keys after the cursor, and the cursor of the page that follows. -/
def page (limit : Nat) (cursor : Option κ) (keys : List κ) : List κ × Option κ :=
  let rest := after cursor keys
  (rest.take limit, if limit < rest.length then (rest.take limit).getLast? else none)

/-- The pages of a reading, each with the cursor it was asked for; the collection
may look different at every request. -/
def traverse (limit : Nat) (views : Nat → List κ) :
    Nat → Nat → Option κ → Option (List (Option κ × List κ))
  | 0, _, _ => none
  | fuel + 1, request, cursor =>
    let (keys, next) := page limit cursor (views request)
    match next with
    | none => some [(cursor, keys)]
    | some last =>
      (traverse limit views fuel (request + 1) (some last)).map ((cursor, keys) :: ·)

/-- The keys that a reading returned. -/
def returned (pages : List (Option κ × List κ)) : List κ := pages.flatMap Prod.snd

/-- Keys that come after the cursor. -/
def Below (cursor : Option κ) (key : κ) : Prop := ∀ last, cursor = some last → key < last

section After

variable {keys : List κ} {cursor : Option κ} {key last : κ}

theorem after_eq_nil (hmissing : last ∉ keys) : after (some last) keys = [] := by
  induction keys with
  | nil => rfl
  | cons head rest ih =>
    have hne : head ≠ last := fun heq => hmissing (heq ▸ List.mem_cons_self)
    rw [after, if_neg hne]
    exact ih fun hmem => hmissing (List.mem_cons_of_mem head hmem)

theorem after_sublist (cursor : Option κ) (keys : List κ) : (after cursor keys).Sublist keys := by
  cases cursor with
  | none => rw [after]
  | some last =>
    induction keys with
    | nil => rw [after]
    | cons head rest ih =>
      rw [after]
      split
      · exact List.sublist_cons_self head rest
      · exact ih.cons head

theorem mem_after (hkeys : keys.Pairwise (· > ·)) :
    key ∈ after (some last) keys ↔ last ∈ keys ∧ key ∈ keys ∧ key < last := by
  induction keys with
  | nil => simp [after]
  | cons head rest ih =>
    obtain ⟨hhead, hrest⟩ := List.pairwise_cons.mp hkeys
    rw [after]
    split
    · next heq =>
        subst heq
        constructor
        · exact fun hmem => ⟨List.mem_cons_self, List.mem_cons_of_mem head hmem, hhead key hmem⟩
        · rintro ⟨_, hmem, hlt⟩
          rcases List.mem_cons.mp hmem with rfl | hmem
          · exact absurd hlt (lt_irrefl key)
          · exact hmem
    · next hne =>
        rw [ih hrest]
        constructor
        · rintro ⟨hlast, hmem, hlt⟩
          exact ⟨List.mem_cons_of_mem head hlast, List.mem_cons_of_mem head hmem, hlt⟩
        · rintro ⟨hlast, hmem, hlt⟩
          have hlater : last ∈ rest := by
            rcases List.mem_cons.mp hlast with rfl | hlast
            · exact absurd rfl hne
            · exact hlast
          rcases List.mem_cons.mp hmem with rfl | hmem
          · exact absurd (hhead last hlater) (lt_asymm hlt)
          · exact ⟨hlater, hmem, hlt⟩

theorem below_of_mem_after (hkeys : keys.Pairwise (· > ·))
    (hkey : key ∈ after cursor keys) : Below cursor key := by
  rintro last rfl
  exact ((mem_after hkeys).mp hkey).2.2

end After

section Page

variable {limit : Nat} {keys : List κ} {cursor : Option κ} {key last : κ}

/-- Every key that comes after the cursor is on the page, or below the next
cursor. -/
theorem mem_page_or_below (hkeys : keys.Pairwise (· > ·)) (hlimit : 0 < limit)
    (hkey : key ∈ after cursor keys) :
    key ∈ (page limit cursor keys).1 ∨
      ∃ last, (page limit cursor keys).2 = some last ∧ key < last := by
  have hrest : (after cursor keys).Pairwise (· > ·) := hkeys.sublist (after_sublist cursor keys)
  unfold page
  generalize after cursor keys = rest at hkey hrest
  rw [← List.take_append_drop limit rest] at hkey hrest
  rcases List.mem_append.mp hkey with htake | hdrop
  · exact .inl htake
  · right
    have hlong : limit < rest.length := by
      by_contra hshort
      rw [List.drop_eq_nil_of_le (Nat.le_of_not_lt hshort)] at hdrop
      cases hdrop
    have htaken : rest.take limit ≠ [] := by
      rw [← List.length_pos_iff, List.length_take]
      omega
    refine ⟨(rest.take limit).getLast htaken, ?_, ?_⟩
    · simp only [if_pos hlong]
      exact List.getLast?_eq_some_getLast htaken
    · exact (List.pairwise_append.mp hrest).2.2 _ (List.getLast_mem htaken) key hdrop

/-- The next cursor is the last key of the page. -/
theorem le_of_mem_page (hkeys : keys.Pairwise (· > ·))
    (hnext : (page limit cursor keys).2 = some last)
    (hkey : key ∈ (page limit cursor keys).1) : last ≤ key := by
  have hrest : ((after cursor keys).take limit).Pairwise (· > ·) :=
    (hkeys.sublist (after_sublist cursor keys)).sublist (List.take_sublist _ _)
  unfold page at hnext hkey
  dsimp only at hnext hkey
  split at hnext
  · obtain ⟨before, hbefore⟩ := List.getLast?_eq_some_iff.mp hnext
    rw [hbefore] at hkey hrest
    rcases List.mem_append.mp hkey with hkey | hkey
    · exact le_of_lt ((List.pairwise_append.mp hrest).2.2 key hkey last List.mem_cons_self)
    · exact le_of_eq (List.mem_singleton.mp hkey).symm
  · cases hnext

theorem next_mem_after (hnext : (page limit cursor keys).2 = some last) :
    last ∈ after cursor keys := by
  unfold page at hnext
  dsimp only at hnext
  split at hnext
  · exact List.mem_of_mem_take (List.mem_of_mem_getLast? hnext)
  · cases hnext

theorem page_missing (hmissing : last ∉ keys) : page limit (some last) keys = ([], none) := by
  unfold page
  rw [after_eq_nil hmissing]
  simp

end Page

section Traverse

variable {limit : Nat} {views : Nat → List κ} {fuel request : Nat}
  {cursor : Option κ} {pages : List (Option κ × List κ)}

/-- The first page of a reading and the reading that follows it. -/
theorem traverse_cases (hpages : traverse limit views (fuel + 1) request cursor = some pages) :
    ((page limit cursor (views request)).2 = none ∧
        pages = [(cursor, (page limit cursor (views request)).1)]) ∨
      ∃ last rest, (page limit cursor (views request)).2 = some last ∧
        traverse limit views fuel (request + 1) (some last) = some rest ∧
        pages = (cursor, (page limit cursor (views request)).1) :: rest := by
  rw [traverse] at hpages
  generalize page limit cursor (views request) = found at hpages
  obtain ⟨keys, next⟩ := found
  cases next with
  | none =>
    cases hpages
    exact .inl ⟨rfl, rfl⟩
  | some last =>
    obtain ⟨rest, hrest, rfl⟩ := Option.map_eq_some_iff.mp hpages
    exact .inr ⟨last, rest, rfl, hrest, rfl⟩

/-- Cursors decrease, so a reading ends. -/
theorem exists_traverse [WellFoundedLT κ] (limit : Nat)
    (hviews : ∀ request, (views request).Pairwise (· > ·)) (request : Nat) (cursor : Option κ) :
    ∃ fuel, (traverse limit views fuel request cursor).isSome := by
  have hsome : ∀ (last : κ) (request : Nat),
      ∃ fuel, (traverse limit views fuel request (some last)).isSome := by
    intro last
    induction last using WellFoundedLT.induction with
    | ind last ih =>
      intro request
      cases hnext : (page limit (some last) (views request)).2 with
      | none => exact ⟨1, by simp [traverse, hnext]⟩
      | some next =>
        have hlt := below_of_mem_after (hviews request) (next_mem_after hnext) last rfl
        obtain ⟨fuel, hfuel⟩ := ih next hlt (request + 1)
        exact ⟨fuel + 1, by simp [traverse, hnext, hfuel]⟩
  cases hnext : (page limit cursor (views request)).2 with
  | none => exact ⟨1, by simp [traverse, hnext]⟩
  | some next =>
    obtain ⟨fuel, hfuel⟩ := hsome next (request + 1)
    exact ⟨fuel + 1, by simp [traverse, hnext, hfuel]⟩

/-- A reading returns its keys in order, each of them once, and from the views
that it saw. -/
theorem traverse_descending (hviews : ∀ request, (views request).Pairwise (· > ·))
    (hpages : traverse limit views fuel request cursor = some pages) :
    (returned pages).Pairwise (· > ·) ∧ ∀ key ∈ returned pages, Below cursor key := by
  induction fuel generalizing request cursor pages with
  | zero => cases hpages
  | succ fuel ih =>
    have hview := hviews request
    have hkeys : ((page limit cursor (views request)).1).Sublist
        (after cursor (views request)) := List.take_sublist _ _
    have hfirst : ((page limit cursor (views request)).1).Pairwise (· > ·) :=
      hview.sublist (hkeys.trans (after_sublist cursor _))
    have hbelow : ∀ key ∈ (page limit cursor (views request)).1,
        Below cursor key := fun key hkey =>
      below_of_mem_after hview (hkeys.subset hkey)
    rcases traverse_cases hpages with ⟨_, rfl⟩ | ⟨last, rest, hnext, hrest, rfl⟩
    · rw [returned, List.flatMap_cons, List.flatMap_nil, List.append_nil]
      exact ⟨hfirst, hbelow⟩
    · obtain ⟨hlater, hunder⟩ := ih hrest
      have hlast := below_of_mem_after hview (next_mem_after hnext)
      refine ⟨List.pairwise_append.mpr ⟨hfirst, hlater, ?_⟩, ?_⟩
      · intro early hearly late hlate
        exact lt_of_lt_of_le (hunder late hlate last rfl) (le_of_mem_page hview hnext hearly)
      · intro key hkey
        rcases List.mem_append.mp hkey with hkey | hkey
        · exact hbelow key hkey
        · intro start hstart
          exact (hunder key hkey last rfl).trans (hlast start hstart)

/-- Every cursor is still there when it is used, or nothing that stays comes
after it. -/
def Resumable (views : Nat → List κ) (stays : κ → Prop) (request : Nat)
    (pages : List (Option κ × List κ)) : Prop :=
  ∀ index last keys, pages[index]? = some (some last, keys) →
    last ∈ views (request + index) ∨ ∀ key, stays key → ¬ key < last

theorem resumable_cons {stays : κ → Prop} {keys : List κ} :
    Resumable views stays request ((cursor, keys) :: pages) ↔ (∀ last, cursor = some last →
        last ∈ views request ∨ ∀ key, stays key → ¬ key < last) ∧
        Resumable views stays (request + 1) pages := by
  constructor
  · intro hresumable
    refine ⟨?_, ?_⟩
    · rintro last rfl
      exact hresumable 0 last keys rfl
    · intro index last found hindex
      have hfound := hresumable (index + 1) last found hindex
      rwa [Nat.add_assoc, Nat.add_comm 1 index]
  · rintro ⟨hhead, htail⟩ (_ | index) last found hindex
    · cases hindex
      exact hhead last rfl
    · have hfound := htail index last found hindex
      rwa [Nat.add_assoc, Nat.add_comm 1 index] at hfound

theorem mem_after_of_stays (hview : (views request).Pairwise (· > ·)) {stays : κ → Prop} {key : κ}
    (hcursor : ∀ last, cursor = some last → last ∈ views request ∨ ∀ key, stays key → ¬ key < last)
    (hstays : stays key) (hkey : key ∈ views request) (hbelow : Below cursor key) :
    key ∈ after cursor (views request) := by
  cases cursor with
  | none =>
    rw [after]
    exact hkey
  | some last =>
    have hlt := hbelow last rfl
    rcases hcursor last rfl with hlast | hnone
    · exact (mem_after hview).mpr ⟨hlast, hkey, hlt⟩
    · exact absurd hlt (hnone key hstays)

/-- A reading returns everything that stays exactly when it can be resumed after
every page. -/
theorem traverse_complete_iff
    (hviews : ∀ request, (views request).Pairwise (· > ·)) (hlimit : 0 < limit) (stays : κ → Prop)
    (hpages : traverse limit views fuel request cursor = some pages)
    (hstays : ∀ key, stays key → ∀ index < pages.length, key ∈ views (request + index)) :
    (∀ key, stays key → Below cursor key → key ∈ returned pages) ↔
      Resumable views stays request pages := by
  induction fuel generalizing request cursor pages with
  | zero => cases hpages
  | succ fuel ih =>
    have hview := hviews request
    rcases traverse_cases hpages with
      ⟨hnone, rfl⟩ | ⟨last, rest, hnext, hrest, rfl⟩
    · rw [returned, List.flatMap_cons, List.flatMap_nil, List.append_nil]
      constructor
      · intro hcomplete
        refine resumable_cons.mpr ⟨?_, fun _ _ _ hindex => nomatch hindex⟩
        rintro missing rfl
        refine or_iff_not_imp_left.mpr fun hmissing key hkey hlt => ?_
        have hmem := hcomplete key hkey (by rintro _ ⟨⟩; exact hlt)
        rw [page_missing hmissing] at hmem
        cases hmem
      · intro hresumable key hkey hbelow
        have hafter := mem_after_of_stays hview (resumable_cons.mp hresumable).1
          hkey (hstays key hkey 0 (Nat.succ_pos _)) hbelow
        rcases mem_page_or_below hview hlimit hafter with hmem | ⟨_, hsome, _⟩
        · exact hmem
        · rw [hnone] at hsome
          cases hsome
    · have hlater : ∀ key, stays key → ∀ index < rest.length,
          key ∈ views (request + 1 + index) := by
        intro key hkey index hindex
        rw [Nat.add_assoc, Nat.add_comm 1 index]
        exact hstays key hkey (index + 1) (Nat.succ_lt_succ hindex)
      have hunder := below_of_mem_after hview (next_mem_after hnext)
      rw [returned, List.flatMap_cons, resumable_cons, ← ih hrest hlater]
      constructor
      · intro hcomplete
        refine ⟨?_, ?_⟩
        · -- A page that is followed by another found its cursor.
          rintro missing rfl
          refine or_iff_not_imp_left.mpr fun hmissing => ?_
          rw [page_missing hmissing] at hnext
          cases hnext
        · intro key hkey hbelow
          have hlt := hbelow last rfl
          have hmem := hcomplete key hkey fun start hstart => hlt.trans (hunder start hstart)
          rcases List.mem_append.mp hmem with hfirst | hmem
          · exact absurd hlt (not_lt.mpr (le_of_mem_page hview hnext hfirst))
          · exact hmem
      · rintro ⟨hhead, htail⟩ key hkey hbelow
        have hafter := mem_after_of_stays hview hhead hkey
          (hstays key hkey 0 (Nat.succ_pos _)) hbelow
        rcases mem_page_or_below hview hlimit hafter with
          hmem | ⟨found, hfound, hlt⟩
        · exact List.mem_append_left _ hmem
        · rw [hnext] at hfound
          cases hfound
          exact List.mem_append_right _ (htail key hkey (by rintro _ ⟨⟩; exact hlt))

end Traverse

end Paging
