/-
The error values of the modelled code (`crates/common/src/error.rs`): a kind, an
SQLSTATE and a message. Only the SQLSTATEs that a modelled function raises are
listed; `detail` and `hint` are never set by them. A cancellation token is the
reason that is set on it at the moment it is checked.
-/

import Mathlib.Tactic.Ring

namespace Saguaro

/-- `common::ErrorKind`. -/
inductive ErrorKind where
  | protocol
  | parse
  | execute
  | storage
  | io
  | wal
  | durabilityOutcomeUnknown
  | internal
  deriving DecidableEq, Repr

/-- `common::SqlState`, the part the modelled functions raise. -/
inductive SqlState where
  | serializationFailure
  | deadlockDetected
  | lockNotAvailable
  | queryCanceled
  | programLimitExceeded
  | uniqueViolation
  | syntaxError
  | badCopyFileFormat
  | invalidTextRepresentation
  | datatypeMismatch
  | cardinalityViolation
  | ioError
  | internalError
  deriving DecidableEq, Repr

structure DbError where
  kind : ErrorKind
  code : SqlState
  message : String
  deriving DecidableEq, Repr

namespace DbError

def protocol (code : SqlState) (message : String) : DbError := ⟨.protocol, code, message⟩

def parse (code : SqlState) (message : String) : DbError := ⟨.parse, code, message⟩

def execute (code : SqlState) (message : String) : DbError := ⟨.execute, code, message⟩

def storage (code : SqlState) (message : String) : DbError := ⟨.storage, code, message⟩

def wal (code : SqlState) (message : String) : DbError := ⟨.wal, code, message⟩

def io (message : String) : DbError := ⟨.io, .ioError, message⟩

def durabilityOutcomeUnknown (message : String) : DbError :=
  ⟨.durabilityOutcomeUnknown, .ioError, message⟩

def internal (message : String) : DbError := ⟨.internal, .internalError, message⟩

end DbError

/-- `wal_error`, the helper that each file of the WAL crate has. -/
def walError (message : String) : DbError := .wal .internalError message

abbrev Result (α : Type) := Except DbError α

namespace Result

/-- `if c { return Err(e) }`. -/
def failIf (c : Prop) [Decidable c] (e : DbError) : Result Unit := if c then .error e else .ok ()

variable {α β : Type}

@[simp] theorem failIf_eq_ok {c : Prop} [Decidable c] {e : DbError} {u : Unit} :
    failIf c e = .ok u ↔ ¬c := by
  unfold failIf
  split <;> simp [*]

theorem bind_eq_ok {x : Result α} {f : α → Result β} {b : β} :
    (x >>= f) = .ok b ↔ ∃ a, x = .ok a ∧ f a = .ok b := by
  cases x with
  | error e => exact ⟨nofun, fun ⟨_, h, _⟩ => nomatch h⟩
  | ok a => exact ⟨fun h => ⟨a, rfl, h⟩, fun ⟨_, h, h'⟩ => by cases h; exact h'⟩

theorem toOption_eq_some {x : Result α} {a : α} : x.toOption = some a ↔ x = .ok a := by
  cases x with
  | error e => exact ⟨nofun, nofun⟩
  | ok b => exact ⟨fun h => congrArg _ (Option.some.inj h), fun h => congrArg _ (Except.ok.inj h)⟩

@[simp] theorem pure_eq_ok {a b : α} : (pure a : Result α) = .ok b ↔ a = b := Except.ok.injEq a b ▸ Iff.rfl

end Result

@[simp] theorem ok_bind {ε α β : Type} (a : α) (f : α → Except ε β) :
    (Except.ok a >>= f) = f a := rfl

@[simp] theorem error_bind {ε α β : Type} (e : ε) (f : α → Except ε β) :
    (Except.error e >>= f) = Except.error e := rfl

/-- `common::CancelReason`. -/
inductive CancelReason where
  | userRequest
  | statementTimeout
  deriving DecidableEq, Repr

/-- `QueryCancel::check`, given the reason set on the token when it is called. -/
def QueryCancel.check : Option CancelReason → Result Unit
  | none => .ok ()
  | some .userRequest =>
    .error (.execute .queryCanceled "canceling statement due to user request")
  | some .statementTimeout =>
    .error (.execute .queryCanceled "canceling statement due to statement timeout")

end Saguaro
