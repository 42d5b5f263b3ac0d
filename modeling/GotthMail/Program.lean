/-
Programs that call an outside world, and a logic of pre- and postconditions
for them.  Between two calls other parties may change the state; what a
program knows has to be stable under their steps, and every call it makes has
to be allowed in the state in which it is made.
-/
import Mathlib.Logic.Relation
import Mathlib.Control.Basic

namespace Calls

/-- The calls of an interface and what each of them answers. -/
structure Signature where
  Action : Type
  Answer : Action → Type

/-- A program returns, or makes a call and goes on with the answer. -/
inductive Program (S : Signature) (α : Type) where
  | done (value : α)
  | call (action : S.Action) (next : S.Answer action → Program S α)

variable {S : Signature} {α β ε State : Type}

namespace Program

def bind : Program S α → (α → Program S β) → Program S β
  | .done value, rest => rest value
  | .call action next, rest => .call action fun answer => (next answer).bind rest

instance : Monad (Program S) where
  pure := .done
  bind := bind

def perform (action : S.Action) : Program S (S.Answer action) := .call action .done

@[simp] theorem pure_eq (value : α) : (pure value : Program S α) = .done value := rfl

@[simp] theorem done_bind (value : α) (rest : α → Program S β) :
    (.done value : Program S α) >>= rest = rest value := rfl

@[simp] theorem call_bind (action : S.Action)
    (next : S.Answer action → Program S α) (rest : α → Program S β) :
    (.call action next : Program S α) >>= rest =
      .call action fun answer => next answer >>= rest := rfl

/-- Answer the calls from a state, one after the other. -/
def run (handler : State → (action : S.Action) → S.Answer action × State) :
    Program S α → State → α × State
  | .done value, state => (value, state)
  | .call action next, state =>
    (next (handler state action).1).run handler (handler state action).2

/-- Answer a number of calls, and say what is left. -/
def advance (handler : State → (action : S.Action) → S.Answer action × State) :
    Nat → Program S α → State → Program S α × State
  | 0, program, state => (program, state)
  | _ + 1, .done value, state => (.done value, state)
  | count + 1, .call action next, state =>
    (next (handler state action).1).advance handler count (handler state action).2

end Program

/-- A program that may fail. -/
abbrev Task (S : Signature) (ε α : Type) := ExceptT ε (Program S) α

namespace Task

/-- A computation without calls. -/
def of (result : Except ε α) : Task S ε α := ExceptT.mk (.done result)

/-- A call whose failure is the failure of the task. -/
def attempt (program : Program S (Except ε α)) : Task S ε α := ExceptT.mk program

/-- A program whose outcome the task looks at. -/
def observe (program : Program S α) : Task S ε α :=
  ExceptT.mk (program >>= fun value => .done (.ok value))

end Task

section Answers

variable {Site : Type} {site next : Site}
  (handler : Site → (action : S.Action) → S.Answer action × Site)

theorem Program.run_bind (program : Program S α) (rest : α → Program S β) (site : Site) :
    (program >>= rest).run handler site = (rest (program.run handler site).1).run handler
        (program.run handler site).2 := by
  induction program generalizing site with
  | done value => rfl
  | call action next ih => exact ih _ _

theorem Task.run_observe (program : Program S α) (site : Site) :
    (Task.observe program : Task S ε α).run.run handler site =
      (.ok (program.run handler site).1, (program.run handler site).2) :=
  Program.run_bind handler program _ site

variable {handler} {task : Task S ε α} {rest : α → Task S ε β}

/-- After a task that returned, the rest of it runs. -/
theorem Task.run_bind_ok {value : α} (htask : task.run.run handler site = (.ok value, next)) :
    (task >>= rest).run.run handler site = (rest value).run.run handler next := by
  have hbind := Program.run_bind handler task.run (ExceptT.bindCont rest) site
  rw [htask] at hbind
  exact hbind

theorem Task.run_bind_error {reason : ε}
    (htask : task.run.run handler site = (.error reason, next)) :
    (task >>= rest).run.run handler site = (.error reason, next) := by
  have hbind := Program.run_bind handler task.run (ExceptT.bindCont rest) site
  rw [htask] at hbind
  exact hbind

end Answers

/-- The states that a program reaches when nobody else runs, with what is left
of it. -/
inductive Runs
    (performs : State → (action : S.Action) → S.Answer action → State → Prop) :
    Program S α → State → Program S α → State → Prop
  | stop {program : Program S α} {state : State} : Runs performs program state program state
  | step {action : S.Action} {next : S.Answer action → Program S α}
      {state after final : State} {answer : S.Answer action}
      {rest : Program S α} (hperforms : performs state action answer after)
      (hruns : Runs performs (next answer) after rest final) :
      Runs performs (.call action next) state rest final

section Handlers

variable {Site : Type} {performs : State → (action : S.Action) → S.Answer action → State → Prop}
  {handler : Site → (action : S.Action) → S.Answer action × Site} (view : Site → State)
  (hhandler : ∀ site action, performs (view site) action
    (handler site action).1 (view (handler site action).2))
include hhandler

/-- A handler that performs every call runs every program to its end. -/
theorem Runs.of_run (program : Program S α) (site : Site) :
    Runs performs program (view site) (.done (program.run handler site).1)
      (view (program.run handler site).2) := by
  induction program generalizing site with
  | done value => exact .stop
  | call action next ih => exact .step (hhandler site action) (ih _ _)

/-- It also runs them as far as one likes. -/
theorem Runs.of_advance (count : Nat) (program : Program S α) (site : Site) :
    Runs performs program (view site) (program.advance handler count site).1
      (view (program.advance handler count site).2) := by
  induction count generalizing program site with
  | zero => exact .stop
  | succ count ih =>
    cases program with
    | done value => exact .stop
    | call action next => exact .step (hhandler site action) (ih _ _)

end Handlers

/-- The rules under which one program runs: what its calls do, what others may
do in between, and which calls it may make. -/
structure Setting (S : Signature) (State : Type) where
  performs : State → (action : S.Action) → S.Answer action → State → Prop
  rely : State → State → Prop
  allowed : State → S.Action → Prop

namespace Setting

variable (E : Setting S State)

/-- A fact that the other parties leave alone. -/
def Stable (fact : State → Prop) : Prop :=
  ∀ state after, fact state → E.rely state after → fact after

/-- Every call of the program is allowed, and it returns in a state that meets
the postcondition. -/
def Safe (post : α → State → Prop) : Program S α → State → Prop
  | .done value, state => post value state
  | .call action next, state =>
    E.allowed state action ∧ ∀ answer after, E.performs state action answer after →
        ∀ later, Relation.ReflTransGen E.rely after later → Safe post (next answer) later

/-- From every state that meets the precondition the program is safe. -/
def Triple (pre : State → Prop) (program : Program S α) (post : α → State → Prop) : Prop :=
  ∀ state, pre state → E.Safe post program state

variable {E} {pre middle : State → Prop} {post : α → State → Prop}

variable {state : State} {program : Program S α} {final : β → State → Prop}
  {weaker : State → Prop} {stronger : α → State → Prop} {result : Except ε α}

theorem Stable.steps {fact : State → Prop} (hfact : E.Stable fact) {later : State}
    (hstate : fact state) (hsteps : Relation.ReflTransGen E.rely state later) :
    fact later := by
  induction hsteps with
  | refl => exact hstate
  | tail _ hstep ih => exact hfact _ _ ih hstep

theorem Stable.const (fact : Prop) : E.Stable fun _ => fact := fun _ _ hstate _ => hstate

theorem Safe.mono {other : α → State → Prop}
    (hpost : ∀ value state, post value state → other value state)
    (hsafe : E.Safe post program state) : E.Safe other program state := by
  induction program generalizing state with
  | done value => exact hpost value state hsafe
  | call action next ih =>
    exact ⟨hsafe.1, fun answer after hperforms later hsteps =>
      ih answer (hsafe.2 answer after hperforms later hsteps)⟩

theorem Safe.bind {rest : α → Program S β}
    (hsafe : E.Safe (fun value => E.Safe final (rest value)) program state) :
    E.Safe final (program >>= rest) state := by
  induction program generalizing state with
  | done value => exact hsafe
  | call action next ih =>
    exact ⟨hsafe.1, fun answer after hperforms later hsteps =>
      ih answer (hsafe.2 answer after hperforms later hsteps)⟩

theorem Triple.pure {value : α} (hpost : ∀ state, pre state → post value state) :
    E.Triple pre (Pure.pure value) post :=
  hpost

theorem Triple.bind {rest : α → Program S β} (hfirst : E.Triple pre program post)
    (hrest : ∀ value, E.Triple (post value) (rest value) final) :
    E.Triple pre (program >>= rest) final :=
  fun state hstate => Safe.bind ((hfirst state hstate).mono fun value after => hrest value after)

theorem Triple.consequence (hpre : ∀ state, pre state → weaker state)
    (hprogram : E.Triple weaker program stronger)
    (hpost : ∀ value state, stronger value state → post value state) :
    E.Triple pre program post :=
  fun state hstate => (hprogram state (hpre state hstate)).mono hpost

/-- A call: it is allowed, and what it establishes is stable. -/
theorem Triple.perform {action : S.Action} {result : S.Answer action → State → Prop}
    (hallowed : ∀ state, pre state → E.allowed state action)
    (hresult : ∀ {state answer after}, pre state →
      E.performs state action answer after → result answer after)
    (hstable : ∀ answer, E.Stable (result answer)) : E.Triple pre (Program.perform action) result :=
  fun state hstate => ⟨hallowed state hstate, fun answer _ hperforms _ hsteps =>
      (hstable answer).steps (hresult hstate hperforms) hsteps⟩

/-- Safety is kept along the calls of the program itself. -/
theorem Safe.of_runs {rest : Program S α} {final : State}
    (hruns : Runs E.performs program state rest final)
    (hsafe : E.Safe post program state) : E.Safe post rest final := by
  induction hruns with
  | stop => exact hsafe
  | step hperforms _ ih => exact ih (hsafe.2 _ _ hperforms _ .refl)

/-- The postcondition of a task: one for its value, one for its failure. -/
def Outcome (post : α → State → Prop) (failed : State → Prop) : Except ε α → State → Prop
  | .ok value, state => post value state
  | .error _, state => failed state

/-- A task started under the precondition ends in one of two ways. -/
def Attempts (E : Setting S State) (pre : State → Prop) (task : Task S ε α)
    (post : α → State → Prop) (failed : State → Prop) : Prop :=
  E.Triple pre task.run (Outcome post failed)

/-- Every call of a task is allowed, however it ends. -/
abbrev Obeys (E : Setting S State) (pre : State → Prop) (task : Task S ε α) : Prop :=
  E.Attempts pre task (fun _ _ => True) fun _ => True

/-- A task keeps a fact, however it ends. -/
abbrev Keeps (E : Setting S State) (fact : State → Prop) (task : Task S ε α) : Prop :=
  E.Attempts fact task (fun _ => fact) fact

variable {failed : State → Prop} {task : Task S ε α}

theorem Attempts.bind {rest : α → Task S ε β} (htask : E.Attempts pre task post failed)
    (hrest : ∀ value, E.Attempts (post value) (rest value) final failed) :
    E.Attempts pre (task >>= rest) final failed := by
  refine Triple.bind htask ?_
  intro result
  cases result with
  | error reason => exact Triple.pure fun _ hfailed => hfailed
  | ok value => exact hrest value

theorem Attempts.pure {value : α} (hpost : ∀ state, pre state → post value state) :
    E.Attempts pre (Pure.pure value : Task S ε α) post failed :=
  hpost

theorem Attempts.of (hok : ∀ value state, result = .ok value → pre state → post value state)
    (herror : ∀ state, pre state → failed state) : E.Attempts pre (Task.of result) post failed := by
  intro state hstate
  cases result with
  | error reason => exact herror state hstate
  | ok value => exact hok value state rfl hstate

theorem Attempts.of_any :
    E.Attempts pre (Task.of result)
      (fun value state => pre state ∧ result = .ok value) fun _ => True :=
  Attempts.of (fun _ _ hresult hstate => ⟨hstate, hresult⟩) fun _ _ => trivial

/-- A computation without calls, followed by the rest of the task. -/
theorem Attempts.of_bind {rest : α → Task S ε β} (hrest : ∀ value, result = .ok value →
      E.Attempts pre (rest value) final fun _ => True) :
    E.Attempts pre (Task.of result >>= rest) final fun _ => True := by
  cases result with
  | error reason => exact fun _ _ => trivial
  | ok value => exact hrest value rfl

theorem Attempts.attempt_or {program : Program S (Except ε α)}
    {holds : Except ε α → State → Prop} (hprogram : E.Triple pre program holds)
    (hfailed : ∀ reason state, holds (.error reason) state → failed state) :
    E.Attempts pre (Task.attempt program) (fun value => holds (.ok value)) failed := by
  refine Triple.consequence (fun _ hstate => hstate) hprogram ?_
  intro result state hholds
  cases result with
  | error reason => exact hfailed reason state hholds
  | ok value => exact hholds

theorem Attempts.attempt_any {program : Program S (Except ε α)}
    {holds : Except ε α → State → Prop} (hprogram : E.Triple pre program holds) :
    E.Attempts pre (Task.attempt program) (fun value => holds (.ok value)) fun _ => True :=
  Attempts.attempt_or hprogram fun _ _ _ => trivial

theorem Attempts.observe (hprogram : E.Triple pre program post) :
    E.Attempts pre (Task.observe program : Task S ε α) post failed :=
  Triple.bind hprogram fun _ => Triple.pure fun _ hstate => hstate

theorem Attempts.consequence {ended : State → Prop} (hpre : ∀ state, pre state → weaker state)
    (htask : E.Attempts weaker task stronger ended)
    (hpost : ∀ value state, stronger value state → post value state)
    (hfailed : ∀ state, ended state → failed state) :
    E.Attempts pre task post failed := by
  refine Triple.consequence hpre htask ?_
  intro result state hstate
  cases result with
  | error reason => exact hfailed state hstate
  | ok value => exact hpost value state hstate

theorem Attempts.weaken {ended : State → Prop} (htask : E.Attempts pre task stronger ended)
    (hpost : ∀ value state, stronger value state → post value state)
    (hfailed : ∀ state, ended state → failed state) :
    E.Attempts pre task post failed :=
  consequence (fun _ hstate => hstate) htask hpost hfailed

theorem Attempts.after (hpre : ∀ state, pre state → weaker state)
    (htask : E.Attempts weaker task post failed) : E.Attempts pre task post failed :=
  consequence hpre htask (fun _ _ hstate => hstate) fun _ hstate => hstate

end Setting

end Calls
