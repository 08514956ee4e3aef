/-
Guarded runs of a deterministic labelled transition system.

`Run step ok s acts t` says that the labels `acts` lead from `s` to `t`, each of
them taken in a state where the guard `ok` admits it. The guard is what a claim
about *some* runs restricts; a claim about all runs uses `fun _ _ => True`.
`Run.invariant` is the only induction principle the developments above need:
one step lemma gives the property of every state of every run.
-/

import Mathlib.Data.List.Basic

namespace Saguaro.Transition

variable {S A : Type*} {acts : List A}

/-- `Run step ok s acts t`: the labels `acts` lead from `s` to `t`, every one
enabled (`step` answers) and admitted by `ok` in the state it is taken in. -/
inductive Run (step : S → A → Option S) (ok : S → A → Prop) : S → List A → S → Prop where
  | nil (s : S) : Run step ok s [] s
  | cons {s mid t : S} {a : A} {acts : List A} :
      ok s a → step s a = some mid → Run step ok mid acts t → Run step ok s (a :: acts) t

/-- The executable form of a run, for a guard that can be evaluated. -/
def exec (step : S → A → Option S) (ok : S → A → Bool) : S → List A → Option S
  | s, [] => some s
  | s, a :: acts => if ok s a then (step s a).bind fun mid => exec step ok mid acts else none

variable {step : S → A → Option S} {ok : S → A → Prop}

/-- **The invariant rule**: what every admitted step keeps, every run keeps. -/
theorem Run.invariant {I : S → Prop} (keeps : ∀ s a t, I s → ok s a → step s a = some t → I t)
    {s t : S} (run : Run step ok s acts t) (start : I s) : I t := by
  induction run with
  | nil => exact start
  | cons adm taken _ ih => exact ih (keeps _ _ _ start adm taken)

/-- A guard may be weakened. -/
theorem Run.mono {ok' : S → A → Prop} (weaker : ∀ s a, ok s a → ok' s a)
    {s t : S} (run : Run step ok s acts t) : Run step ok' s acts t := by
  induction run with
  | nil => exact .nil _
  | cons adm taken _ ih => exact .cons (weaker _ _ adm) taken ih

/-- Runs compose. -/
theorem Run.append {s mid t : S} {first snd : List A} (run : Run step ok s first mid)
    (rest : Run step ok mid snd t) : Run step ok s (first ++ snd) t := by
  induction run with
  | nil => exact rest
  | cons adm taken _ ih => exact .cons adm taken (ih rest)

/-- **The simulation rule**: when every step of one system can be followed by another
so that `R` is kept, every run can. -/
theorem Run.simulate {T : Type*} {step' : T → A → Option T} {R : S → T → Prop}
    (follow : ∀ s t a s', R s t → step s a = some s' → ∃ t', step' t a = some t' ∧ R s' t')
    {s s' : S} {t : T} (run : Run step ok s acts s') (start : R s t) :
    ∃ t', Run step' (fun _ _ => True) t acts t' ∧ R s' t' := by
  induction run generalizing t with
  | nil => exact ⟨t, .nil t, start⟩
  | cons _ taken _ ih =>
    obtain ⟨mid, taken', related⟩ := follow _ _ _ _ start taken
    obtain ⟨t', rest, ends⟩ := ih related
    exact ⟨t', .cons trivial taken' rest, ends⟩

/-- An executed list of labels is a run. -/
theorem Run.of_exec {ok : S → A → Bool} {s t : S}
    (done : exec step ok s acts = some t) : Run step (fun s a => ok s a = true) s acts t := by
  induction acts generalizing s with
  | nil =>
    cases done
    exact .nil _
  | cons a acts ih =>
    unfold exec at done
    split at done
    · rename_i adm
      obtain ⟨mid, taken, rest⟩ := Option.bind_eq_some_iff.mp done
      exact .cons adm taken (ih rest)
    · cases done

/-- An executed list of labels is a run, to a state of which an evaluation holds. -/
theorem Run.evaluated [∀ s a, Decidable (ok s a)] {P : S → Prop} [DecidablePred P] {s : S}
    (done : (exec step (fun s a => decide (ok s a)) s acts).any (fun t => decide (P t)) = true) :
    ∃ t, Run step ok s acts t ∧ P t := by
  obtain ⟨t, ran, holds⟩ := (Option.any_eq_true ..).mp done
  exact ⟨t, (Run.of_exec ran).mono fun _ _ => of_decide_eq_true, of_decide_eq_true holds⟩

/-- An executed list of labels is a run. -/
theorem Run.executed [∀ s a, Decidable (ok s a)] {s : S}
    (done : (exec step (fun s a => decide (ok s a)) s acts).isSome = true) :
    ∃ t, Run step ok s acts t := by
  obtain ⟨t, ran⟩ := Option.isSome_iff_exists.mp done
  exact ⟨t, (Run.of_exec ran).mono fun _ _ => of_decide_eq_true⟩

/-- A run by a script, whose labels may depend on the state they are taken in. -/
def play (step : S → A → Option S) (ok : S → A → Bool) : S → List (S → A) → Option S
  | s, [] => some s
  | s, next :: script =>
    if ok s (next s) then (step s (next s)).bind fun mid => play step ok mid script else none

theorem Run.of_play {ok : S → A → Bool} {s t : S} {script : List (S → A)}
    (done : play step ok s script = some t) :
    ∃ acts, Run step (fun s a => ok s a = true) s acts t := by
  induction script generalizing s with
  | nil =>
    cases done
    exact ⟨[], .nil _⟩
  | cons next script ih =>
    unfold play at done
    split at done
    · rename_i adm
      obtain ⟨mid, taken, rest⟩ := Option.bind_eq_some_iff.mp done
      obtain ⟨acts, run⟩ := ih rest
      exact ⟨next s :: acts, .cons adm taken run⟩
    · cases done

end Saguaro.Transition
