/-
Programs whose steps can fail and that can be stopped between any two steps.

A `Prog ε σ α` runs on a state of type `σ` under a list of faults: each primitive
step takes the next fault from the list, and either happens, fails with an error
after part of its effect, or stops the machine after part of its effect. The
empty list means that nothing goes wrong any more. A program that runs under every
list of faults is a program that is interrupted everywhere.

`WP` is the weakest precondition of this language, with one postcondition for each
way a run can end: normal return, error, and a stop (the crash condition). It is
parametrised by `F`, "faults may happen": with `F := True` it speaks of all
interruptions, with `F := False` of the undisturbed run. The rules below are used
by name; nothing outside this module unfolds `WP`.
-/

import Mathlib.Data.List.Basic

namespace Saguaro.Crash

/-- What happens to one primitive step: nothing unusual, an error, or a stop of
the machine. `progress` says how far the step's effect got before. -/
inductive Fault where
  | none
  | fail (progress : Nat)
  | stop (progress : Nat)
  deriving DecidableEq, Repr

inductive Outcome (ε α : Type) where
  | ok (value : α)
  | error (e : ε)
  | stopped
  deriving DecidableEq, Repr

structure Machine (σ : Type) where
  state : σ
  faults : List Fault
  deriving DecidableEq

/-- A program over the state `σ` with errors `ε`. -/
def Prog (ε σ α : Type) : Type := Machine σ → Outcome ε α × Machine σ

variable {ε σ τ α β κ : Type}

namespace Prog

instance : Monad (Prog ε σ) where
  pure a := fun m => (.ok a, m)
  bind c k := fun m =>
    match c m with
    | (.ok a, m') => k a m'
    | (.error e, m') => (.error e, m')
    | (.stopped, m') => (.stopped, m')

def throw (e : ε) : Prog ε σ α := fun m => (.error e, m)

/-- Run `handler` on an error of `c`; a stop is not an error. -/
def tryCatch (c : Prog ε σ α) (handler : ε → Prog ε σ α) : Prog ε σ α := fun m =>
  match c m with
  | (.error e, m') => handler e m'
  | other => other

/-- Read from the state, with no step of its own. -/
def gets (f : σ → α) : Prog ε σ α := fun m => (.ok (f m.state), m)

/-- Change the state in memory: cannot fail and cannot be interrupted. -/
def modify (f : σ → σ) : Prog ε σ Unit := fun m => (.ok (), { m with state := f m.state })

/-- A primitive step with the effect `effect`. When it is disturbed, what is left
is `torn progress`. -/
def step (effect : σ → σ) (torn : Nat → σ → σ) (e : ε) : Prog ε σ Unit := fun m =>
  match m.faults with
  | [] => (.ok (), { m with state := effect m.state })
  | .none :: rest => (.ok (), ⟨effect m.state, rest⟩)
  | .fail progress :: rest => (.error e, ⟨torn progress m.state, rest⟩)
  | .stop progress :: rest => (.stopped, ⟨torn progress m.state, rest⟩)

/-- A step that happens entirely or not at all. -/
def atomic (effect : σ → σ) (e : ε) : Prog ε σ Unit := step effect (fun _ s => s) e

def ensure (condition : Bool) (e : ε) : Prog ε σ Unit :=
  if condition then pure () else throw e

def when (condition : Bool) (c : Prog ε σ Unit) : Prog ε σ Unit :=
  if condition then c else pure ()

def ofExcept : Except ε α → Prog ε σ α
  | .ok a => pure a
  | .error e => throw e

/-- A read that can fail: a step without effect, then a check of what it found. -/
def read (f : σ → Except ε α) (e : ε) : Prog ε σ α := do
  atomic id e
  let found ← gets f
  ofExcept found

/-- Run a program on a part of the state. -/
def zoom (get : σ → τ) (put : τ → σ → σ) (c : Prog ε τ α) : Prog ε σ α := fun m =>
  match c ⟨get m.state, m.faults⟩ with
  | (outcome, m') => (outcome, ⟨put m'.state m.state, m'.faults⟩)

def forEach (body : κ → Prog ε σ Unit) : List κ → Prog ε σ Unit
  | [] => pure ()
  | x :: xs => do
      body x
      forEach body xs

end Prog

/-- `WP F C c Q E s`: run from `s`, the program `c` returns a value and a state
that satisfy `Q`, or an error and a state that satisfies `E`, or is stopped in a
state that satisfies `C`. Without `F` there are no faults to begin with. -/
def WP (F : Prop) (C : σ → Prop) (c : Prog ε σ α) (Q : α → σ → Prop) (E : σ → Prop)
    (s : σ) : Prop := ∀ faults, F ∨ faults = [] →
    match c ⟨s, faults⟩ with
    | (.ok a, m) => Q a m.state ∧ (F ∨ m.faults = [])
    | (.error _, m) => E m.state ∧ (F ∨ m.faults = [])
    | (.stopped, m) => F ∧ C m.state

namespace WP

variable {F : Prop} {C : σ → Prop} {Q : α → σ → Prop} {E : σ → Prop} {s : σ}

variable {a : α}

theorem pure (post : Q a s) : WP F C (Pure.pure a : Prog ε σ α) Q E s :=
  fun _ quiet => ⟨post, quiet⟩

variable {e : ε}

theorem throw (post : E s) : WP F C (Prog.throw e) Q E s := fun _ quiet => ⟨post, quiet⟩

variable {c : Prog ε σ α}

theorem bind {k : α → Prog ε σ β} {R : β → σ → Prop}
    (first : WP F C c (fun a t => WP F C (k a) R E t) E s) : WP F C (c >>= k) R E s := by
  intro faults quiet
  have ran := first faults quiet
  change match (match c ⟨s, faults⟩ with
    | (.ok a, m') => k a m'
    | (.error e, m') => (.error e, m')
    | (.stopped, m') => (.stopped, m')) with
    | (.ok b, m) => R b m.state ∧ (F ∨ m.faults = [])
    | (.error _, m) => E m.state ∧ (F ∨ m.faults = [])
    | (.stopped, m) => F ∧ C m.state
  rcases h : c ⟨s, faults⟩ with ⟨_ | _ | _, m⟩ <;> rw [h] at ran
  · exact ran.1 m.faults ran.2
  · exact ran
  · exact ran

theorem tryCatch {handler : ε → Prog ε σ α}
    (body : WP F C c Q (fun t => ∀ e, WP F C (handler e) Q E t) s) :
    WP F C (Prog.tryCatch c handler) Q E s := by
  intro faults quiet
  have ran := body faults quiet
  unfold Prog.tryCatch
  rcases h : c ⟨s, faults⟩ with ⟨_ | e | _, m⟩ <;> rw [h] at ran
  · exact ran
  · exact ran.1 e m.faults ran.2
  · exact ran

theorem gets {f : σ → α} (post : Q (f s) s) : WP F C (Prog.gets f : Prog ε σ α) Q E s :=
  fun _ quiet => ⟨post, quiet⟩

theorem modify {f : σ → σ} {Q : Unit → σ → Prop} (post : Q () (f s)) :
    WP F C (Prog.modify f : Prog ε σ Unit) Q E s := fun _ quiet => ⟨post, quiet⟩

theorem step {effect : σ → σ} {torn : Nat → σ → σ} {Q : Unit → σ → Prop} (done : Q () (effect s))
    (hurt : F → ∀ progress, E (torn progress s) ∧ C (torn progress s)) :
    WP F C (Prog.step effect torn e) Q E s := by
  intro faults quiet
  match faults, quiet with
  | [], quiet => exact ⟨done, quiet⟩
  | .none :: rest, .inl may => exact ⟨done, .inl may⟩
  | .fail progress :: rest, .inl may => exact ⟨(hurt may progress).1, .inl may⟩
  | .stop progress :: rest, .inl may => exact ⟨may, (hurt may progress).2⟩

theorem atomic {effect : σ → σ} {Q : Unit → σ → Prop} (done : Q () (effect s))
    (hurt : F → E s ∧ C s) : WP F C (Prog.atomic effect e) Q E s :=
  WP.step done fun may _ => hurt may

theorem ensure {cond : Bool} {Q : Unit → σ → Prop}
    (holds : cond = true → Q () s) (fails : cond = false → E s) :
    WP F C (Prog.ensure cond e) Q E s := by
  cases cond with
  | true => exact WP.pure (holds rfl)
  | false => exact WP.throw (fails rfl)

theorem when {cond : Bool} {c : Prog ε σ Unit} {Q : Unit → σ → Prop}
    (holds : cond = true → WP F C c Q E s) (fails : cond = false → Q () s) :
    WP F C (Prog.when cond c) Q E s := by
  cases cond with
  | true => exact holds rfl
  | false => exact WP.pure (fails rfl)

theorem ofExcept_ok {x : Except ε α} (found : x = .ok a) (post : Q a s) :
    WP F C (Prog.ofExcept x) Q E s := by
  rw [found]
  exact WP.pure post

theorem read_ok {f : σ → Except ε α} (found : f s = .ok a) (post : Q a s)
    (hurt : F → E s ∧ C s) : WP F C (Prog.read f e) Q E s :=
  WP.bind (WP.atomic (WP.bind (WP.gets (WP.ofExcept_ok found post))) hurt)

theorem read_error {f : σ → Except ε α} {e e' : ε} (found : f s = .error e') (post : E s)
    (hurt : F → C s) : WP F C (Prog.read f e) Q E s := by
  apply WP.bind
  apply WP.atomic _ fun may => ⟨post, hurt may⟩
  apply WP.bind
  apply WP.gets
  change WP F C (Prog.ofExcept (f s)) Q E s
  rw [found]
  exact WP.throw post

/-- Weaken every postcondition. -/
theorem mono {C' : σ → Prop} {Q' : α → σ → Prop} {E' : σ → Prop}
    (more : WP F C' c Q' E' s) (ok : ∀ a t, Q' a t → Q a t) (error : ∀ t, E' t → E t)
    (stopped : ∀ t, C' t → C t) : WP F C c Q E s := by
  intro faults quiet
  have ran := more faults quiet
  rcases h : c ⟨s, faults⟩ with ⟨_ | _ | _, m⟩ <;> rw [h] at ran
  · exact ⟨ok _ _ ran.1, ran.2⟩
  · exact ⟨error _ ran.1, ran.2⟩
  · exact ⟨ran.1, stopped _ ran.2⟩

/-- A program on a part of the state leaves the rest as it is. -/
theorem zoom {get : σ → τ} {put : τ → σ → σ} {c : Prog ε τ α}
    (inner : WP F (fun t => C (put t s)) c (fun a t => Q a (put t s)) (fun t => E (put t s))
      (get s)) : WP F C (Prog.zoom get put c) Q E s := by
  intro faults quiet
  have ran := inner faults quiet
  unfold Prog.zoom
  rcases h : c ⟨get s, faults⟩ with ⟨_ | _ | _, m⟩ <;> rw [h] at ran <;> exact ran

/-- **The loop rule**: an invariant that may speak of what is left to do. -/
theorem forEach {body : κ → Prog ε σ Unit} (I : List κ → σ → Prop)
    (turn : ∀ x xs t, I (x :: xs) t → WP F C (body x) (fun _ u => I xs u) E t)
    (xs : List κ) (start : I xs s) : WP F C (Prog.forEach body xs) (fun _ t => I [] t) E s := by
  induction xs generalizing s with
  | nil => exact WP.pure start
  | cons x xs ih =>
    apply WP.bind
    exact WP.mono (turn x xs s start) (fun _ _ inv => ih inv) (fun _ e => e) (fun _ c => c)

/-- Nothing is known of a program but that it ends. -/
theorem any (ok : ∀ a t, Q a t) (error : ∀ t, E t) (stopped : ∀ t, C t) : WP True C c Q E s := by
  intro faults _
  obtain ⟨_ | _ | _, m⟩ := c ⟨s, faults⟩
  · exact ⟨ok _ _, .inl trivial⟩
  · exact ⟨error _, .inl trivial⟩
  · exact ⟨trivial, stopped _⟩

/-- What a run under any faults ends in. -/
theorem run (spec : WP True C c Q E s) (faults : List Fault) :
    (∃ a m, c ⟨s, faults⟩ = (.ok a, m) ∧ Q a m.state) ∨
    (∃ e m, c ⟨s, faults⟩ = (.error e, m) ∧ E m.state) ∨
    (∃ m, c ⟨s, faults⟩ = (.stopped, m) ∧ C m.state) := by
  have ran := spec faults (.inl trivial)
  rcases h : c ⟨s, faults⟩ with ⟨_ | _ | _, m⟩ <;> rw [h] at ran
  · exact .inl ⟨_, m, rfl, ran.1⟩
  · exact .inr (.inl ⟨_, m, rfl, ran.1⟩)
  · exact .inr (.inr ⟨m, rfl, ran.2⟩)

/-- Without faults, a program whose error condition is false returns. -/
theorem run_undisturbed (spec : WP False C c Q (fun _ => False) s) :
    ∃ a m, c ⟨s, []⟩ = (.ok a, m) ∧ Q a m.state := by
  have ran := spec [] (.inr rfl)
  rcases h : c ⟨s, []⟩ with ⟨_ | _ | _, m⟩ <;> rw [h] at ran
  · exact ⟨_, m, rfl, ran.1⟩
  · exact ran.1.elim
  · exact ran.1.elim

end WP

end Saguaro.Crash
