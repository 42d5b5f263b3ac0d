/-
A thread that runs alone.  Nobody acts between its calls, so what a task leaves
behind follows from the answers to these calls.
-/
import GotthMail.Traces

namespace Calls

variable {S : Signature} {World : Type}

namespace Machine

variable (M : Machine S World) (admits : Moment S World → Event S → Prop)

/-- A thread that nobody interrupts, and whose calls are answered as admitted. -/
def alone (thread : Thread) : Setting S (Moment S World) where
  performs state action answer after :=
    M.Acts thread state action answer after ∧ admits state ⟨thread, action, answer⟩
  rely _ _ := False
  allowed _ _ := True

variable {M admits} {α β ε : Type} {thread : Thread} {state after : Moment S World}

theorem alone_steps (hsteps : Relation.ReflTransGen (M.alone admits thread).rely
    state after) : after = state := by
  rcases Relation.ReflTransGen.cases_head hsteps with hsame | ⟨_, hrely, _⟩
  · exact hsame.symm
  · exact hrely.elim

/-- A call, answered in any way that is admitted. -/
theorem alone_call {action : S.Action} {post : S.Answer action → Moment S World → Prop}
    (hanswers : ∀ answer after, M.Acts thread state action answer after →
      admits state ⟨thread, action, answer⟩ → post answer after) :
    (M.alone admits thread).Safe post (Program.perform action) state := by
  refine ⟨trivial, fun answer after hperforms later hsteps => ?_⟩
  rw [alone_steps hsteps]
  exact hanswers answer after hperforms.1 hperforms.2

/-- A run in which every answer is admitted. -/
theorem runs_alone {program rest : Program S α}
    (hruns : Runs (M.Acts thread) program state rest after) :
    Runs (M.alone (fun _ _ => True) thread).performs program state rest after := by
  induction hruns with
  | stop => exact .stop
  | step hacts _ ih => exact .step ⟨hacts, trivial⟩ ih

/-- A fact that every call of a program keeps holds after it. -/
theorem alone_keeps {bad : S.Action → Prop} {fact : Moment S World → Prop}
    (hacts : ∀ {state action answer after}, fact state → ¬ bad action →
      M.Acts thread state action answer after → fact after)
    {program : Program S α} (havoids : program.Avoids bad) (hstate : fact state) :
    (M.alone admits thread).Safe (fun _ => fact) program state := by
  induction program generalizing state with
  | done value => exact hstate
  | call action next ih =>
    refine ⟨trivial, fun answer after hperforms later hsteps => ?_⟩
    rw [alone_steps hsteps]
    exact ih answer (havoids.2 answer) (hacts hstate havoids.1 hperforms.1)

/-- How a task ends that runs alone from a state. -/
def Yields (M : Machine S World) (admits : Moment S World → Event S → Prop)
    (thread : Thread) (task : Task S ε α) (state : Moment S World)
    (post : Except ε α → Moment S World → Prop) : Prop :=
  (M.alone admits thread).Safe post task.run state

namespace Yields

variable {task : Task S ε α} {rest : α → Task S ε β}
  {post other : Except ε α → Moment S World → Prop} {final : Except ε β → Moment S World → Prop}

theorem mono (hpost : ∀ result state, post result state → other result state)
    (htask : M.Yields admits thread task state post) :
    M.Yields admits thread task state other :=
  Setting.Safe.mono hpost htask

theorem bind (htask : M.Yields admits thread task state fun result after =>
      match result with
      | .ok value => M.Yields admits thread (rest value) after final
      | .error reason => final (.error reason) after) :
    M.Yields admits thread (task >>= rest) state final := by
  refine Setting.Safe.bind (Setting.Safe.mono ?_ htask)
  intro result after hresult
  cases result with
  | error reason => exact hresult
  | ok value => exact hresult

theorem any (hpost : ∀ result state, post result state) :
    M.Yields admits thread task state post := by
  have hsafe : ∀ (program : Program S (Except ε α)) state,
      (M.alone admits thread).Safe post program state := by
    intro program
    induction program with
    | done result => exact hpost result
    | call action next ih =>
      exact fun _ => ⟨trivial, fun answer _ _ later _ => ih answer later⟩
  exact hsafe task.run state

theorem pure {value : α} (hpost : post (.ok value) state) :
    M.Yields admits thread (Pure.pure value : Task S ε α) state post :=
  hpost

theorem of {result : Except ε α} (hpost : post result state) :
    M.Yields admits thread (Task.of result) state post :=
  hpost

/-- A computation without calls, and the rest of the task. -/
theorem of_bind {result : Except ε α} (hok : ∀ value, result = .ok value →
      M.Yields admits thread (rest value) state final)
    (herror : ∀ reason, result = .error reason → final (.error reason) state) :
    M.Yields admits thread (Task.of result >>= rest) state final := by
  cases result with
  | error reason => exact herror reason rfl
  | ok value => exact hok value rfl

theorem attempt {program : Program S (Except ε α)}
    (hprogram : (M.alone admits thread).Safe post program state) :
    M.Yields admits thread (Task.attempt program) state post :=
  hprogram

theorem observe_bind {program : Program S α} (hprogram : (M.alone admits thread).Safe
      (fun value after => M.Yields admits thread (rest value) after final) program state) :
    M.Yields admits thread (Task.observe program >>= rest) state final := by
  refine Setting.Safe.bind (Setting.Safe.bind (Setting.Safe.mono ?_ hprogram))
  exact fun _ _ hrest => hrest

end Yields

end Machine

end Calls
