/-
Frames cut from the front of a growing buffer.

A `Framer` looks at a buffer and finds that it needs more, that the next frame is
wrong, or an item and the rest. What it has found does not change when more input
arrives behind it (`item_append`, `fail_append`). Everything about how the input was
cut into chunks follows from that: `drain` takes all the items off a buffer, and
`drain_append` says that taking them off early makes no difference.
-/

import Mathlib.Data.List.Basic

namespace Saguaro.Framing

/-- What a framer finds at the front of a buffer. -/
inductive Next (α M E : Type*) where
  | more
  | fail (error : E)
  | item (item : M) (rest : List α)

structure Framer (α M E : Type*) where
  next : List α → Next α M E
  shrinks : ∀ {buffer item rest}, next buffer = .item item rest → rest.length < buffer.length
  item_append : ∀ {buffer item rest} more, next buffer = .item item rest →
    next (buffer ++ more) = .item item (rest ++ more)
  fail_append : ∀ {buffer error} more, next buffer = .fail error →
    next (buffer ++ more) = .fail error

namespace Framer

variable {α M E : Type*} (f : Framer α M E)

/-- The items at the front of the buffer, and then an error or what is left. -/
def drain (buffer : List α) : List M × Except E (List α) :=
  match _found : f.next buffer with
  | .more => ([], .ok buffer)
  | .fail error => ([], .error error)
  | .item item rest => (item :: (drain rest).1, (drain rest).2)
termination_by buffer.length
decreasing_by all_goals exact f.shrinks _found

variable {f} {buffer rest : List α} {item : M} {error : E} {items : List M}

theorem drain_of_more (found : f.next buffer = .more) : f.drain buffer = ([], .ok buffer) := by
  rw [drain]
  split <;> simp_all

theorem drain_of_fail (found : f.next buffer = .fail error) :
    f.drain buffer = ([], .error error) := by
  rw [drain]
  split <;> simp_all

theorem drain_of_item (found : f.next buffer = .item item rest) :
    f.drain buffer = (item :: (f.drain rest).1, (f.drain rest).2) := by
  rw [drain]
  split <;> simp_all

/-- What is left after draining needs more. -/
theorem next_of_drain_ok (drained : f.drain buffer = (items, .ok rest)) : f.next rest = .more := by
  induction buffer using drain.induct f generalizing items with
  | case1 buffer found =>
    rw [drain_of_more found] at drained
    cases drained
    exact found
  | case2 buffer error found =>
    rw [drain_of_fail found] at drained
    cases drained
  | case3 buffer item left found ih =>
    rw [drain_of_item found] at drained
    obtain ⟨-, tail⟩ := Prod.mk.inj drained
    have whole : f.drain left = ((f.drain left).1, .ok rest) := Prod.ext rfl tail
    exact ih whole

/-- **Draining early makes no difference**: an error stays where it is, and what an
incomplete drain leaves is read together with what comes later. -/
theorem drain_append (buffer more : List α) : f.drain (buffer ++ more) =
    match f.drain buffer with
    | (items, .error error) => (items, .error error)
    | (items, .ok rest) => (items ++ (f.drain (rest ++ more)).1, (f.drain (rest ++ more)).2) := by
  induction buffer using drain.induct f with
  | case1 buffer found =>
    rw [drain_of_more found]
    rfl
  | case2 buffer error found =>
    rw [drain_of_fail found, drain_of_fail (f.fail_append more found)]
  | case3 buffer item left found ih =>
    rw [drain_of_item found, drain_of_item (f.item_append more found), ih]
    obtain ⟨items, error | rest⟩ := f.drain left <;> rfl

theorem drain_append_of_error (drained : f.drain buffer = (items, .error error)) (more : List α) :
    f.drain (buffer ++ more) = (items, .error error) := by
  rw [drain_append, drained]

theorem drain_append_of_ok (drained : f.drain buffer = (items, .ok rest)) (more : List α) :
    f.drain (buffer ++ more) =
      (items ++ (f.drain (rest ++ more)).1, (f.drain (rest ++ more)).2) := by
  rw [drain_append, drained]

end Framer

end Saguaro.Framing
