/-
Operations on a state that can fail.  A failed operation keeps what it has
written before it failed, so a caller that goes on after an error sees the
partial result.
-/
import GotthMail.Relational

/-- An operation: its result, and the state it leaves behind. -/
def Effect (σ ε α : Type) : Type := σ → Except ε α × σ

namespace Effect

variable {σ ε α β : Type}

def bind (first : Effect σ ε α) (rest : α → Effect σ ε β) : Effect σ ε β :=
  fun state =>
    match first state with
    | (.ok value, after) => rest value after
    | (.error reason, after) => (.error reason, after)

instance : Monad (Effect σ ε) where
  pure value := fun state => (.ok value, state)
  bind := bind

def fail (reason : ε) : Effect σ ε α := fun state => (.error reason, state)

/-- Read from the state. -/
def ask (read : σ → α) : Effect σ ε α := fun state => (.ok (read state), state)

def alter (change : σ → σ) : Effect σ ε Unit := fun state => (.ok (), change state)

def of (result : Except ε α) : Effect σ ε α := fun state => (result, state)

/-- Continue only when a condition holds. -/
def guard (condition : Bool) (reason : ε) : Effect σ ε Unit :=
  if condition then pure () else fail reason

/-- Continue with a value that has to be there. -/
def need (value : Option α) (reason : ε) : Effect σ ε α :=
  match value with
  | some found => pure found
  | none => fail reason

/-- A computation that may fail returns when its parts do. -/
theorem except_bind_ok_iff {first : Except ε α} {rest : α → Except ε β} {result : β} :
    first >>= rest = .ok result ↔ ∃ value, first = .ok value ∧ rest value = .ok result := by
  cases first with
  | error reason => simp [Bind.bind, Except.bind]
  | ok value => simp [Bind.bind, Except.bind]

section Success

variable {state after : σ} {value : α}

@[simp] theorem bind_ok_iff {first : Effect σ ε α} {rest : α → Effect σ ε β} {result : β} :
    (first >>= rest) state = (.ok result, after) ↔
      ∃ value middle, first state = (.ok value, middle) ∧
        rest value middle = (.ok result, after) := by
  change Effect.bind first rest state = _ ↔ _
  unfold Effect.bind
  rcases first state with ⟨_ | value, middle⟩
  · simp
  · constructor
    · intro hrest
      exact ⟨value, middle, rfl, hrest⟩
    · rintro ⟨_, _, hfirst, hrest⟩
      cases hfirst
      exact hrest

@[simp] theorem pure_ok_iff {result : α} :
    (pure value : Effect σ ε α) state = (.ok result, after) ↔ value = result ∧ state = after := by
  change (Except.ok value, state) = _ ↔ _
  simp

variable {reason : ε}

@[simp] theorem fail_ok_iff : (fail reason : Effect σ ε α) state = (.ok value, after) ↔ False := by
  simp [fail]

@[simp] theorem ask_ok_iff {read : σ → α} :
    (ask read : Effect σ ε α) state = (.ok value, after) ↔ read state = value ∧ state = after := by
  simp [ask]

@[simp] theorem alter_ok_iff {change : σ → σ} {u : Unit} :
    (alter change : Effect σ ε Unit) state = (.ok u, after) ↔ change state = after := by
  simp [alter]

@[simp] theorem guard_ok_iff {condition : Bool} {u : Unit} :
    (guard condition reason : Effect σ ε Unit) state = (.ok u, after) ↔
      condition = true ∧ state = after := by
  cases condition <;> simp [guard]

@[simp] theorem need_ok_iff {found : Option α} :
    (need found reason : Effect σ ε α) state = (.ok value, after) ↔
      found = some value ∧ state = after := by
  cases found <;> simp [need]

end Success

/-- From a state that meets the first condition the operation ends with a value
and a state that meet the second, or fails in a state that meets the third. -/
def Triple (pre : σ → Prop) (operation : Effect σ ε α) (post : α → σ → Prop)
    (raised : σ → Prop) : Prop :=
  ∀ state, pre state →
    match operation state with
    | (.ok value, after) => post value after
    | (.error _, after) => raised after

section Triple

variable {pre : σ → Prop} {post : α → σ → Prop} {final : β → σ → Prop} {raised : σ → Prop}

variable {operation : Effect σ ε α} {reason : ε} {rest : α → Effect σ ε β}

theorem Triple.returned (hoperation : operation.Triple pre post raised)
    {state after : σ} {value : α} (hstate : pre state)
    (hreturned : operation state = (.ok value, after)) :
    post value after := by
  have houtcome := hoperation state hstate
  rwa [hreturned] at houtcome

theorem Triple.failed (hoperation : operation.Triple pre post raised) {state after : σ}
    (hstate : pre state) (hfailed : operation state = (.error reason, after)) :
    raised after := by
  have houtcome := hoperation state hstate
  rwa [hfailed] at houtcome

/-- It is enough to look at what returns when failures are of no interest. -/
theorem Triple.of_returned (hreturned : ∀ state value after, pre state →
      operation state = (.ok value, after) → post value after) :
    operation.Triple pre post fun _ => True := by
  intro state hstate
  split
  · next value after heq => exact hreturned state value after hstate heq
  · trivial

theorem Triple.bind {first : Effect σ ε α} (hfirst : first.Triple pre post raised)
    (hrest : ∀ value, (rest value).Triple (post value) final raised) :
    (first >>= rest).Triple pre final raised := by
  intro state hstate
  have hmiddle := hfirst state hstate
  change match Effect.bind first rest state with
    | (.ok value, after) => final value after
    | (.error _, after) => raised after
  unfold Effect.bind
  split at hmiddle
  · next value middle heq => exact hrest value middle hmiddle
  · exact hmiddle

theorem Triple.consequence {stronger : σ → Prop} {weaker : α → σ → Prop}
    {failed : σ → Prop} (hoperation : operation.Triple pre post raised)
    (hpre : ∀ state, stronger state → pre state)
    (hpost : ∀ value state, post value state → weaker value state)
    (hraised : ∀ state, raised state → failed state) :
    operation.Triple stronger weaker failed := by
  intro state hstate
  have hresult := hoperation state (hpre state hstate)
  split at hresult
  · exact hpost _ _ hresult
  · exact hraised _ hresult

/-- It is enough to look at one state at a time. -/
theorem Triple.pointwise (heach : ∀ state, pre state → operation.Triple (· = state) post raised) :
    operation.Triple pre post raised :=
  fun state hstate => heach state hstate state rfl

theorem Triple.pure {value : α} (hpost : ∀ state, pre state → post value state) :
    (pure value : Effect σ ε α).Triple pre post raised :=
  hpost

theorem Triple.guard {condition : Bool} {done : Unit → σ → Prop}
    (hraised : condition = false → ∀ state, pre state → raised state)
    (hpost : condition = true → ∀ state, pre state → done () state) :
    (guard condition reason).Triple pre done raised := by
  cases condition
  · exact hraised rfl
  · exact hpost rfl

theorem Triple.guard_bind {condition : Bool} {rest : Unit → Effect σ ε β}
    (hraised : ∀ state, pre state → raised state)
    (hrest : condition = true → (rest ()).Triple pre final raised) :
    (Effect.guard condition reason >>= rest).Triple pre final raised := by
  cases condition
  · exact hraised
  · exact hrest rfl

theorem Triple.need_bind {value : Option α} (hraised : ∀ state, pre state → raised state)
    (hrest : ∀ found, value = some found → (rest found).Triple pre final raised) :
    (Effect.need value reason >>= rest).Triple pre final raised := by
  cases value with
  | none => exact hraised
  | some found => exact hrest found rfl

theorem Triple.of_bind {result : Except ε α} (hraised : ∀ state, pre state → raised state)
    (hrest : ∀ value, result = .ok value → (rest value).Triple pre final raised) :
    (Effect.of result >>= rest).Triple pre final raised := by
  cases result with
  | error reason => exact hraised
  | ok value => exact hrest value rfl

/-- Both outcomes of a check may be used. -/
theorem Triple.of_cases {result : Except ε α}
    (hraised : ∀ reason, result = .error reason → ∀ state, pre state → raised state)
    (hrest : ∀ value, result = .ok value → (rest value).Triple pre final raised) :
    (Effect.of result >>= rest).Triple pre final raised := by
  cases result with
  | error reason => exact hraised reason rfl
  | ok value => exact hrest value rfl

theorem Triple.ask_bind {read : σ → α} (hrest : ∀ value, (rest value).Triple
      (fun state => pre state ∧ read state = value) final raised) :
    (Effect.ask read >>= rest).Triple pre final raised :=
  fun state hstate => hrest (read state) state ⟨hstate, rfl⟩

/-- The value read is known when the state is. -/
theorem Triple.ask_known {read : σ → α} {known : σ}
    (hrest : (rest (read known)).Triple (· = known) final raised) :
    (Effect.ask read >>= rest).Triple (· = known) final raised := by
  rintro _ rfl
  exact hrest _ rfl

theorem Triple.alter {change : σ → σ} {done : Unit → σ → Prop}
    (hpost : ∀ state, pre state → done () (change state)) :
    (alter change : Effect σ ε Unit).Triple pre done raised :=
  hpost

theorem Triple.alter_bind {change : σ → σ} {rest : Unit → Effect σ ε β} (hrest : (rest ()).Triple
      (fun state => ∃ before, pre before ∧ change before = state) final raised) :
    (Effect.alter change >>= rest).Triple pre final raised :=
  fun state hstate => hrest (change state) ⟨state, hstate, rfl⟩

/-- A loop keeps what each of its rounds keeps. -/
theorem Triple.forM {items : List α} {action : α → Effect σ ε PUnit}
    (haction : ∀ item ∈ items, (action item).Triple pre (fun _ => pre) raised) :
    (forM items action).Triple pre (fun _ => pre) raised := by
  induction items with
  | nil => exact Triple.pure fun _ hstate => hstate
  | cons head rest ih =>
    rw [List.forM_cons]
    refine Triple.bind (haction head List.mem_cons_self) fun _ => ih ?_
    intro item hitem
    exact haction item (List.mem_cons_of_mem _ hitem)

/-- A loop reaches what holds of all of its items when each round extends what
holds of the items before it. -/
theorem Triple.forM_done {items : List α} {action : α → Effect σ ε PUnit}
    {holds : List α → σ → Prop} (haction : ∀ done, ∀ item ∈ items, (action item).Triple (holds done)
      (fun _ => holds (done ++ [item])) raised) (done : List α) :
    (ForM.forM items action).Triple (holds done) (fun _ => holds (done ++ items))
      raised := by
  induction items generalizing done with
  | nil =>
    rw [List.append_nil]
    exact Triple.pure fun _ hstate => hstate
  | cons head rest ih =>
    rw [List.forM_cons, List.append_cons]
    refine Triple.bind (haction done head List.mem_cons_self) fun _ => ?_
    apply ih
    intro earlier item hitem
    exact haction earlier item (List.mem_cons_of_mem _ hitem)

end Triple

/-- An operation that counts as a whole: what it has written stays when it returns and the
commit takes effect, and nothing of it stays otherwise. -/
def transact (ending : Relational.CommitEnd) (fault : ε) (body : Effect σ ε α) :
    Effect σ ε α := fun state =>
  match body state with
  | (.ok value, after) => ending.settle fault value state after
  | (.error reason, _) => (.error reason, state)

theorem Triple.transact {pre : σ → Prop} {post : α → σ → Prop}
    {raised : σ → Prop} {body : Effect σ ε α} {ending : Relational.CommitEnd} {fault : ε}
    (hbody : body.Triple pre post fun _ => True) (hraised : ∀ state, pre state → raised state)
    (hlost : ending = .lost → ∀ value state, post value state → raised state) :
    (body.transact ending fault).Triple pre post raised := by
  intro state hstate
  unfold Effect.transact
  have hpost := hbody state hstate
  cases hresult : body state with
  | mk outcome after =>
    rw [hresult] at hpost
    cases outcome with
    | error reason => exact hraised state hstate
    | ok value =>
      cases ending with
      | done => exact hpost
      | refused => exact hraised state hstate
      | lost => exact hlost rfl value after hpost

end Effect
