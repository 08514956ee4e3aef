/-
What a fallible computation guarantees, whichever way it ends.

`Sat post bad x` is a postcondition for a computation in `Except`: a result satisfies
`post`, and a fault is one of those that `bad` admits. `Sat.bind` is the rule for
sequencing, so a computation is judged step by step along its `do` block.
-/

import Mathlib.Init

namespace Saguaro.Outcome

variable {ε α β : Type}

def Sat (post : α → Prop) (bad : ε → Prop) : Except ε α → Prop
  | .ok a => post a
  | .error e => bad e

variable {post mid : α → Prop} {bad : ε → Prop}

variable {a : α}

@[simp] theorem sat_ok : Sat post bad (.ok a) ↔ post a := Iff.rfl

@[simp] theorem sat_error {e : ε} : Sat post bad (.error e) ↔ bad e := Iff.rfl

variable {x : Except ε α}

theorem Sat.bind {f : α → Except ε β} {after : β → Prop}
    (h : Sat mid bad x) (next : ∀ a, mid a → Sat after bad (f a)) : Sat after bad (x >>= f) := by
  cases x with
  | error e => exact h
  | ok a => exact next a h

/-- A step that is known to succeed. -/
theorem Sat.bind_ok {f : α → Except ε β} {after : β → Prop}
    (done : x = .ok a) (next : Sat after bad (f a)) : Sat after bad (x >>= f) := by
  rw [done]
  exact next

theorem Sat.imp {post' : α → Prop} {bad' : ε → Prop} (h : Sat post bad x)
    (results : ∀ a, post a → post' a) (faults : ∀ e, bad e → bad' e) : Sat post' bad' x := by
  cases x with
  | error e => exact faults e h
  | ok a => exact results a h

/-- What is returned can be named in the conclusion. -/
theorem Sat.and_eq (h : Sat post bad x) : Sat (fun a => x = .ok a ∧ post a) bad x := by
  cases x with
  | error e => exact h
  | ok a => exact ⟨rfl, h⟩

theorem Sat.of_toOption (h : Sat post bad x) (done : x.toOption = some a) : post a := by
  cases x with
  | error e => cases done
  | ok b =>
    cases done
    exact h

theorem Sat.any (x : Except ε α) : Sat (fun _ => True) (fun _ => True) x := by
  cases x <;> trivial

/-- Without an admitted fault there is a result. -/
theorem Sat.exists_ok (h : Sat post bad x) (none : ∀ e, ¬ bad e) : ∃ a, x = .ok a ∧ post a := by
  cases x with
  | error e => exact absurd h (none e)
  | ok a => exact ⟨a, rfl, h⟩

end Saguaro.Outcome
