/-
Threads over one shared world.  Each thread runs its own program, calls are
atomic and may come in any order, and a thread can stop at any time.  A
program that is safe under the allowed steps of the others stays safe in the
pool of all of them.
-/
import GotthMail.Program
import Mathlib.Logic.Function.Basic

namespace Calls

abbrev Thread := Nat

/-- One call that has been answered. -/
structure Event (S : Signature) where
  thread : Thread
  action : S.Action
  answer : S.Answer action

/-- The world together with what has happened in it, the newest event first. -/
structure Moment (S : Signature) (World : Type) where
  world : World
  history : List (Event S)

/-- What a call of a thread does, and what is left when a thread stops. -/
structure Machine (S : Signature) (World : Type) where
  performs : Thread → World → (action : S.Action) → S.Answer action → World → Prop
  exits : Thread → World → World

/-- A moment and the programs that are still to run. -/
structure Pool (S : Signature) (World : Type) where
  state : Moment S World
  running : Thread → Option (Program S Unit)

variable {S : Signature} {World : Type}

namespace Machine

variable (M : Machine S World)

def Acts (thread : Thread) (state : Moment S World) (action : S.Action)
    (answer : S.Answer action) (after : Moment S World) : Prop :=
  M.performs thread state.world action answer after.world ∧
    after.history = ⟨thread, action, answer⟩ :: state.history

/-- The moment after a thread has stopped. -/
def left (thread : Thread) (state : Moment S World) : Moment S World :=
  ⟨M.exits thread state.world, state.history⟩

inductive Step : Pool S World → Pool S World → Prop
  | act {pool : Pool S World} {thread : Thread} {action : S.Action}
      {next : S.Answer action → Program S Unit} {answer : S.Answer action} {after : Moment S World}
      (hrunning : pool.running thread = some (.call action next))
      (hacts : M.Acts thread pool.state action answer after) :
      Step pool ⟨after, Function.update pool.running thread (some (next answer))⟩
  | exit {pool : Pool S World} {thread : Thread} {program : Program S Unit}
      (hrunning : pool.running thread = some program) :
      Step pool ⟨M.left thread pool.state, Function.update pool.running thread none⟩

/-- The pools that the programs reach from a world in which nothing has
happened yet. -/
def Reachable (start : World) (programs : Thread → Program S Unit) (pool : Pool S World) : Prop :=
  Relation.ReflTransGen M.Step ⟨⟨start, []⟩, fun thread => some (programs thread)⟩ pool

/-- What one thread sees of the others: their allowed calls and their exits. -/
def setting (allowed : Thread → Moment S World → S.Action → Prop)
    (thread : Thread) : Setting S (Moment S World) where
  performs := M.Acts thread
  rely state after := ∃ other, other ≠ thread ∧ ((∃ action answer, allowed other state action ∧
      M.Acts other state action answer after) ∨ after = M.left other state)
  allowed := allowed thread

variable {M} {allowed : Thread → Moment S World → S.Action → Prop}
  {start : World} {programs : Thread → Program S Unit} {pool next : Pool S World}

/-- What is left of every program is safe, whatever the others do next. -/
def Sound (M : Machine S World) (allowed : Thread → Moment S World → S.Action → Prop)
    (pool : Pool S World) : Prop :=
  ∀ thread program, pool.running thread = some program →
    ∀ later, Relation.ReflTransGen (M.setting allowed thread).rely pool.state later →
      (M.setting allowed thread).Safe (fun _ _ => True) program later

theorem Sound.permits {thread : Thread} {action : S.Action}
    {rest : S.Answer action → Program S Unit} (hsound : M.Sound allowed pool)
    (hrunning : pool.running thread = some (.call action rest)) :
    allowed thread pool.state action :=
  (hsound thread _ hrunning _ .refl).1

/-- A step of one thread is interference for every other one. -/
theorem Sound.step (hsound : M.Sound allowed pool) (hstep : M.Step pool next) :
    M.Sound allowed next := by
  cases hstep with
  | @act actor action rest answer after hrunning hacts =>
    intro thread program hprogram later hsteps
    dsimp only at hprogram hsteps
    by_cases hsame : thread = actor
    · subst hsame
      rw [Function.update_self] at hprogram
      cases hprogram
      exact (hsound thread _ hrunning _ .refl).2 answer after hacts later hsteps
    · rw [Function.update_of_ne hsame] at hprogram
      refine hsound thread program hprogram later (.head ?_ hsteps)
      exact ⟨actor, Ne.symm hsame, .inl ⟨action, answer, hsound.permits hrunning, hacts⟩⟩
  | @exit actor stopped hrunning =>
    intro thread program hprogram later hsteps
    dsimp only at hprogram hsteps
    by_cases hsame : thread = actor
    · subst hsame
      rw [Function.update_self] at hprogram
      cases hprogram
    · rw [Function.update_of_ne hsame] at hprogram
      refine hsound thread program hprogram later (.head ?_ hsteps)
      exact ⟨actor, Ne.symm hsame, .inr rfl⟩

theorem Sound.reachable (hstart : M.Sound allowed
      ⟨⟨start, []⟩, fun thread => some (programs thread)⟩)
    (hreachable : M.Reachable start programs pool) : M.Sound allowed pool := by
  induction hreachable with
  | refl => exact hstart
  | tail _ hstep ih => exact ih.step hstep

/-- A fact that no allowed call and no exit destroys holds throughout. -/
theorem Reachable.invariant {fact : Moment S World → Prop} (hsound : M.Sound allowed
      ⟨⟨start, []⟩, fun thread => some (programs thread)⟩)
    (hacts : ∀ {thread state action answer after}, fact state →
      allowed thread state action → M.Acts thread state action answer after → fact after)
    (hexits : ∀ {thread state}, fact state → fact (M.left thread state)) (hstart : fact ⟨start, []⟩)
    (hreachable : M.Reachable start programs pool) : fact pool.state := by
  induction hreachable with
  | refl => exact hstart
  | tail hbefore hstep ih =>
    cases hstep with
    | act hrunning hact =>
      exact hacts ih ((hsound.reachable hbefore).permits hrunning) hact
    | exit hrunning => exact hexits ih

/-- A fact that no allowed call and no exit takes away. -/
structure Lasting (M : Machine S World)
    (allowed : Thread → Moment S World → S.Action → Prop)
    (fact : Moment S World → Prop) : Prop where
  acts : ∀ {thread state action answer after}, fact state →
    allowed thread state action → M.Acts thread state action answer after → fact after
  exits : ∀ {thread state}, fact state → fact (M.left thread state)

namespace Lasting

variable {fact other : Moment S World → Prop}

theorem const (fact : Prop) : M.Lasting allowed fun _ => fact :=
  ⟨fun hfact _ _ => hfact, fun hfact => hfact⟩

theorem and (hfact : M.Lasting allowed fact) (hother : M.Lasting allowed other) :
    M.Lasting allowed fun state => fact state ∧ other state :=
  ⟨fun hboth hallowed hacts =>
      ⟨hfact.acts hboth.1 hallowed hacts, hother.acts hboth.2 hallowed hacts⟩,
    fun hboth => ⟨hfact.exits hboth.1, hother.exits hboth.2⟩⟩

theorem any {ι : Sort*} {facts : ι → Moment S World → Prop}
    (hfacts : ∀ index, M.Lasting allowed (facts index)) :
    M.Lasting allowed fun state => ∃ index, facts index state :=
  ⟨fun ⟨index, hfact⟩ hallowed hacts => ⟨index, (hfacts index).acts hfact hallowed hacts⟩,
    fun ⟨index, hfact⟩ => ⟨index, (hfacts index).exits hfact⟩⟩

theorem stable {thread : Thread} (hfact : M.Lasting allowed fact) :
    (M.setting allowed thread).Stable fact := by
  rintro state after hstate ⟨other, -, ⟨action, answer, hallowed, hacts⟩ | rfl⟩
  · exact hfact.acts hstate hallowed hacts
  · exact hfact.exits hstate

/-- What a call tells a thread lasts, together with what it knew. -/
theorem learns {thread : Thread} {action : S.Action}
    {learned : S.Answer action → Moment S World → Prop}
    (hfact : M.Lasting allowed fact) (hlearned : ∀ answer, M.Lasting allowed (learned answer))
    (hallowed : ∀ state, fact state → allowed thread state action)
    (hacts : ∀ {state answer after}, fact state →
      M.Acts thread state action answer after → learned answer after) :
    (M.setting allowed thread).Triple fact (Program.perform action)
      fun answer state => fact state ∧ learned answer state :=
  Setting.Triple.perform hallowed
    (fun hstate hperforms => ⟨hfact.acts hstate (hallowed _ hstate) hperforms,
      hacts hstate hperforms⟩)
    fun answer => (hfact.and (hlearned answer)).stable

end Lasting

/-- One thread can run while the others wait. -/
theorem steps_of_runs {thread : Thread} {program rest : Program S Unit}
    {state final : Moment S World} (hruns : Runs (M.Acts thread) program state rest final)
    {running : Thread → Option (Program S Unit)} (hrunning : running thread = some program) :
    Relation.ReflTransGen M.Step ⟨state, running⟩
      ⟨final, Function.update running thread (some rest)⟩ := by
  induction hruns generalizing running with
  | stop =>
    rw [← hrunning, Function.update_eq_self]
  | step hperforms _ ih =>
    refine .head (.act hrunning hperforms) ?_
    have hrest := ih (Function.update_self thread _ running)
    rwa [Function.update_idem] at hrest

end Machine

section Schedules

variable {Site : Type} (handler : Thread → Site → (action : S.Action) → S.Answer action × Site)

/-- Let the threads run in turn, each for a number of calls. -/
def follow : List (Thread × Nat) → (Thread → Program S Unit) → Site →
    (Thread → Program S Unit) × Site
  | [], programs, site => (programs, site)
  | (thread, count) :: rest, programs, site =>
    let advanced := (programs thread).advance (handler thread) count site
    follow rest (Function.update programs thread advanced.1) advanced.2

theorem update_some (programs : Thread → Program S Unit) (thread : Thread)
    (program : Program S Unit) :
    Function.update (fun thread => some (programs thread)) thread (some program) =
        fun other => some (Function.update programs thread program other) := by
  funext other
  by_cases hother : other = thread
  · subst hother
    rw [Function.update_self, Function.update_self]
  · rw [Function.update_of_ne hother, Function.update_of_ne hother]

variable {M : Machine S World} {handler}

/-- A schedule is one of the orders in which the pool may run. -/
theorem steps_of_follow (view : Site → Moment S World)
    (hhandler : ∀ thread site action, M.Acts thread (view site) action
      (handler thread site action).1 (view (handler thread site action).2))
    (schedule : List (Thread × Nat)) (programs : Thread → Program S Unit) (site : Site) :
    Relation.ReflTransGen M.Step ⟨view site, fun thread => some (programs thread)⟩
      ⟨view (follow handler schedule programs site).2, fun thread =>
        some ((follow handler schedule programs site).1 thread)⟩ := by
  induction schedule generalizing programs site with
  | nil => exact .refl
  | cons turn rest ih =>
    obtain ⟨thread, count⟩ := turn
    have hruns := Runs.of_advance view (hhandler thread) count (programs thread) site
    have hsteps : Relation.ReflTransGen M.Step
        ⟨view site, fun thread => some (programs thread)⟩ _ :=
      Machine.steps_of_runs hruns rfl
    rw [update_some] at hsteps
    exact hsteps.trans (ih _ _)

end Schedules

end Calls
