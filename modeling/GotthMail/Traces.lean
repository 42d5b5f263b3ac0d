/-
The calls that a single program has made.  In a run of many threads the events
of one thread are a trace of its own program, and every event happened at some
moment of the run; from the trace of a program one reads off which answers
have led it to where it is.
-/
import GotthMail.Interleaving

namespace Calls

variable {S : Signature} {α β ε : Type}

/-- A call together with its answer. -/
abbrev Exchange (S : Signature) := (action : S.Action) × S.Answer action

/-- The exchanges of a program, the oldest first, and what is left of it. -/
inductive Traces : Program S α → List (Exchange S) → Program S α → Prop
  | stop {program : Program S α} : Traces program [] program
  | step {action : S.Action} {next : S.Answer action → Program S α}
      {answer : S.Answer action} {events : List (Exchange S)}
      {rest : Program S α} (hrest : Traces (next answer) events rest) :
      Traces (.call action next) (⟨action, answer⟩ :: events) rest

/-- No call of a program is one of the given ones. -/
def Program.Avoids (bad : S.Action → Prop) : Program S α → Prop
  | .done _ => True
  | .call action next => ¬ bad action ∧ ∀ answer, (next answer).Avoids bad

variable {program rest : Program S α} {events : List (Exchange S)} {bad : S.Action → Prop}

theorem Traces.concat {action : S.Action} {next : S.Answer action → Program S α}
    (htraces : Traces program events (.call action next)) (answer : S.Answer action) :
    Traces program (events ++ [⟨action, answer⟩]) (next answer) := by
  generalize hleft : Program.call action next = left at htraces
  induction htraces with
  | stop =>
    subst hleft
    exact .step .stop
  | step _ ih => exact .step (ih hleft)

theorem Program.Avoids.traces (havoids : program.Avoids bad)
    (htraces : Traces program events rest) : rest.Avoids bad := by
  induction htraces with
  | stop => exact havoids
  | @step action next answer events rest _ ih => exact ih (havoids.2 answer)

variable {next : α → Program S β}

theorem Program.Avoids.bind (havoids : program.Avoids bad)
    (hnext : ∀ value, (next value).Avoids bad) : (program >>= next).Avoids bad := by
  induction program with
  | done value => exact hnext value
  | call action continuation ih =>
    exact ⟨havoids.1, fun answer => ih answer (havoids.2 answer)⟩

/-- The trace of a sequence ends in its first part, or goes on in the second. -/
theorem Traces.bind_cases {final : Program S β} (htraces : Traces (program >>= next) events final) :
    (∃ left, Traces program events left ∧ final = left >>= next) ∨
      ∃ value first second, events = first ++ second ∧
        Traces program first (.done value) ∧ Traces (next value) second final := by
  induction program generalizing events with
  | done value => exact .inr ⟨value, [], events, rfl, .stop, htraces⟩
  | call action continuation ih =>
    cases htraces with
    | stop => exact .inl ⟨_, .stop, rfl⟩
    | @step _ _ answer later _ hrest =>
      rcases ih answer hrest with ⟨left, hleft, hfinal⟩ | hsecond
      · exact .inl ⟨left, .step hleft, hfinal⟩
      · obtain ⟨value, first, second, rfl, hfirst, hsecond⟩ := hsecond
        exact .inr ⟨value, ⟨action, answer⟩ :: first, second, rfl, .step hfirst, hsecond⟩

theorem Traces.bind_done {result : β} (htraces : Traces (program >>= next) events (.done result)) :
    ∃ value first second, events = first ++ second ∧ Traces program first (.done value) ∧
      Traces (next value) second (.done result) := by
  rcases htraces.bind_cases with ⟨left, hleft, hfinal⟩ | hsecond
  · cases left with
    | done value =>
      exact ⟨value, events, [], (List.append_nil _).symm, hleft, hfinal ▸ .stop⟩
    | call action continuation => cases hfinal
  · exact hsecond

/-- A program that is about to make a call which its first part avoids has
finished the first part. -/
theorem Traces.bind_call {action : S.Action}
    {continuation : S.Answer action → Program S β} (havoids : program.Avoids bad)
    (hbad : bad action) (htraces : Traces (program >>= next) events (.call action continuation)) :
    ∃ value first second, events = first ++ second ∧ Traces program first (.done value) ∧
      Traces (next value) second (.call action continuation) := by
  rcases htraces.bind_cases with ⟨left, hleft, hfinal⟩ | hsecond
  · cases left with
    | done value =>
      exact ⟨value, events, [], (List.append_nil _).symm, hleft, hfinal ▸ .stop⟩
    | call made rest =>
      have hmade := (havoids.traces hleft).1
      cases hfinal
      exact absurd hbad hmade
  · exact hsecond

namespace Task

variable {task : Task S ε α} {next : α → Task S ε β}

theorem traces_bind_ok {result : β}
    (htraces : Traces (task >>= next).run events (.done (.ok result))) :
    ∃ value first second, events = first ++ second ∧ Traces task.run first (.done (.ok value)) ∧
      Traces (next value).run second (.done (.ok result)) := by
  obtain ⟨outcome, first, second, hevents, hfirst, hsecond⟩ := Traces.bind_done htraces
  cases outcome with
  | error reason => cases hsecond
  | ok value => exact ⟨value, first, second, hevents, hfirst, hsecond⟩

theorem traces_bind_call {action : S.Action}
    {continuation : S.Answer action → Program S (Except ε β)}
    (havoids : task.run.Avoids bad) (hbad : bad action)
    (htraces : Traces (task >>= next).run events (.call action continuation)) :
    ∃ value first second, events = first ++ second ∧ Traces task.run first (.done (.ok value)) ∧
      Traces (next value).run second (.call action continuation) := by
  obtain ⟨outcome, first, second, hevents, hfirst, hsecond⟩ := Traces.bind_call havoids hbad htraces
  cases outcome with
  | error reason => cases hsecond
  | ok value => exact ⟨value, first, second, hevents, hfirst, hsecond⟩

theorem avoids_bind (htask : task.run.Avoids bad) (hnext : ∀ value, (next value).run.Avoids bad) :
    (task >>= next).run.Avoids bad := by
  refine Program.Avoids.bind htask ?_
  intro outcome
  cases outcome with
  | error reason => trivial
  | ok value => exact hnext value

end Task

section Keeping

variable {World : Type} {M : Machine S World} {thread : Thread}
  {allowed : Thread → Moment S World → S.Action → Prop} {fact : Moment S World → Prop}

/-- A program keeps a lasting fact when it only makes calls that are allowed. -/
theorem Machine.Lasting.keeps (hfact : M.Lasting allowed fact)
    (hallowed : ∀ state action, fact state → ¬ bad action → allowed thread state action)
    (havoids : program.Avoids bad) :
    (M.setting allowed thread).Triple fact program fun _ => fact := by
  intro state hstate
  induction program generalizing state with
  | done value => exact hstate
  | call action next ih =>
    have hcall := hallowed state action hstate havoids.1
    refine ⟨hcall, fun answer after hperforms later hsteps => ?_⟩
    exact ih answer (havoids.2 answer) later
      (hfact.stable.steps (hfact.acts hstate hcall hperforms) hsteps)

theorem Machine.Lasting.keeps_task {task : Task S ε α} (hfact : M.Lasting allowed fact)
    (hallowed : ∀ state action, fact state → ¬ bad action → allowed thread state action)
    (havoids : task.run.Avoids bad) : (M.setting allowed thread).Keeps fact task := by
  refine Setting.Triple.consequence (fun _ hstate => hstate) (hfact.keeps hallowed havoids) ?_
  intro result state hstate
  cases result <;> exact hstate

end Keeping

section Runs

variable {World : Type} {M : Machine S World} {start : World}
  {programs : Thread → Program S Unit} {pool next : Pool S World} {thread : Thread}

/-- The exchanges of one thread, the oldest first. -/
def ownEvents (thread : Thread) (history : List (Event S)) : List (Exchange S) :=
  (history.reverse.filter fun event => event.thread = thread).map
    fun event => ⟨event.action, event.answer⟩

theorem ownEvents_cons (event : Event S) (history : List (Event S)) :
    ownEvents thread (event :: history) = ownEvents thread history ++
      if event.thread = thread then [⟨event.action, event.answer⟩] else [] := by
  rw [ownEvents, List.reverse_cons, List.filter_append, List.map_append, ownEvents]
  by_cases hthread : event.thread = thread
  · simp [hthread]
  · simp [hthread]

theorem mem_ownEvents {history : List (Event S)} {action : S.Action} {answer : S.Answer action} :
    (⟨action, answer⟩ : Exchange S) ∈ ownEvents thread history ↔
      ⟨thread, action, answer⟩ ∈ history := by
  simp only [ownEvents, List.mem_map, List.mem_filter, List.mem_reverse, decide_eq_true_eq]
  constructor
  · rintro ⟨⟨_, _, _⟩, ⟨hmem, rfl⟩, heq⟩
    cases heq
    exact hmem
  · exact fun hmem => ⟨_, ⟨hmem, rfl⟩, rfl⟩

/-- An exchange of a thread cuts the history at its event. -/
theorem ownEvents_split {history : List (Event S)} {first second : List (Exchange S)}
    {made : Exchange S} (hown : ownEvents thread history = first ++ made :: second) :
    ∃ newer older, history = newer ++ ⟨thread, made.1, made.2⟩ :: older ∧
      ownEvents thread older = first ∧ ownEvents thread newer = second := by
  induction history generalizing second with
  | nil => cases first <;> cases hown
  | cons event rest ih =>
    rw [ownEvents_cons] at hown
    by_cases hthread : event.thread = thread
    · rw [if_pos hthread] at hown
      rcases List.eq_nil_or_concat second with rfl | ⟨init, last, rfl⟩
      · obtain ⟨hfirst, hlast⟩ := List.append_inj' hown rfl
        cases hlast
        refine ⟨[], rest, ?_, hfirst, rfl⟩
        rw [← hthread]
        rfl
      · rw [List.concat_eq_append, ← List.cons_append, ← List.append_assoc] at hown
        obtain ⟨hrest, hlast⟩ := List.append_inj' hown rfl
        cases hlast
        obtain ⟨newer, older, rfl, hfirst, hsecond⟩ := ih hrest
        refine ⟨event :: newer, older, rfl, hfirst, ?_⟩
        rw [ownEvents_cons, if_pos hthread, hsecond, List.concat_eq_append]
    · rw [if_neg hthread, List.append_nil] at hown
      obtain ⟨newer, older, rfl, hfirst, hsecond⟩ := ih hown
      refine ⟨event :: newer, older, rfl, hfirst, ?_⟩
      rw [ownEvents_cons, if_neg hthread, List.append_nil, hsecond]

/-- The events of a thread are a trace of its program. -/
theorem Machine.Reachable.traces (hreachable : M.Reachable start programs pool)
    {rest : Program S Unit} (hrunning : pool.running thread = some rest) :
    Traces (programs thread) (ownEvents thread pool.state.history) rest := by
  induction hreachable generalizing rest with
  | refl =>
    cases hrunning
    exact .stop
  | @tail before after _ hstep ih =>
    cases hstep with
    | @act actor action continuation answer moment hcall hacts =>
      dsimp only at hrunning ⊢
      rw [hacts.2, ownEvents_cons]
      by_cases hsame : thread = actor
      · subst hsame
        rw [Function.update_self] at hrunning
        cases hrunning
        rw [if_pos rfl]
        exact (ih hcall).concat answer
      · rw [Function.update_of_ne hsame] at hrunning
        rw [if_neg (Ne.symm hsame), List.append_nil]
        exact ih hrunning
    | @exit actor stopped hstopped =>
      dsimp only at hrunning ⊢
      by_cases hsame : thread = actor
      · subst hsame
        rw [Function.update_self] at hrunning
        cases hrunning
      · rw [Function.update_of_ne hsame] at hrunning
        exact ih hrunning

/-- Every event of a history happened at some moment of the run. -/
theorem Machine.Reachable.happened (hreachable : M.Reachable start programs pool)
    {newer older : List (Event S)} {event : Event S}
    (hhistory : pool.state.history = newer ++ event :: older) :
    ∃ before after, M.Reachable start programs before ∧ before.state.history = older ∧
      M.Acts event.thread before.state event.action event.answer after.state ∧
      M.Reachable start programs after ∧ Relation.ReflTransGen M.Step after pool := by
  induction hreachable generalizing newer with
  | refl => cases newer <;> cases hhistory
  | @tail before after hbefore hstep ih =>
    have hearlier {tail} (hsame : before.state.history = tail ++ event :: older) :
        ∃ first second, M.Reachable start programs first ∧
          first.state.history = older ∧
          M.Acts event.thread first.state event.action event.answer second.state ∧
          M.Reachable start programs second ∧ Relation.ReflTransGen M.Step second after := by
      obtain ⟨first, second, hfirst, holder, hacts, hsecond, hrest⟩ := ih hsame
      exact ⟨first, second, hfirst, holder, hacts, hsecond, hrest.tail hstep⟩
    cases hstep with
    | @act actor action continuation answer moment hcall hacts =>
      rw [hacts.2] at hhistory
      cases newer with
      | nil =>
        cases hhistory
        exact ⟨before, _, hbefore, rfl, hacts, hbefore.tail (.act hcall hacts), .refl⟩
      | cons head tail => exact hearlier (List.cons.inj hhistory).2
    | exit hstopped => exact hearlier hhistory

end Runs

end Calls
