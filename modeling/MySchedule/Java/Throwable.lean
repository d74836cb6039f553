import Mathlib.Data.Option.Basic

/-!
# Throwables

The classes the modelled code tells apart by `instanceof` and `catch`, with the
message and the cause that are carried along.
-/

namespace MySchedule.Java

/-- The throwable classes that the code, or what it calls, distinguishes. A Quartz
exception class other than `ObjectAlreadyExistsException` counts as its base class. -/
inductive ThrowableClass
  | schedulerException
  | objectAlreadyExistsException
  | transactionException
  | classNotFoundException
  | nullPointerException
  | checkedException (name : String)
  | runtimeException (name : String)
  | error (name : String)
  deriving DecidableEq, Repr

/-- A throwable, with or without a cause; its message may be null. -/
inductive Throwable
  | plain (cls : ThrowableClass) (message : Option String)
  | caused (cls : ThrowableClass) (message : Option String) (cause : Throwable)
  deriving DecidableEq, Repr

namespace Throwable

def cls : Throwable → ThrowableClass
  | .plain cls _ => cls
  | .caused cls _ _ => cls

def getMessage : Throwable → Option String
  | .plain _ message => message
  | .caused _ message _ => message

def getCause : Throwable → Option Throwable
  | .plain _ _ => none
  | .caused _ _ cause => some cause

/-- `ex instanceof SchedulerException`; its subclass is one too. -/
def isSchedulerException (ex : Throwable) : Bool :=
  ex.cls = .schedulerException || ex.cls = .objectAlreadyExistsException

/-- `ex instanceof ObjectAlreadyExistsException`. -/
def isObjectAlreadyExists (ex : Throwable) : Bool := ex.cls = .objectAlreadyExistsException

/-- `ex instanceof ClassNotFoundException`. -/
def isClassNotFound (ex : Throwable) : Bool := ex.cls = .classNotFoundException

/-- A throwable that is no `Exception`. -/
def isError (ex : Throwable) : Bool :=
  match ex.cls with
  | .error _ => true
  | _ => false

/-- A method was called on null. -/
def nullPointer : Throwable := .plain .nullPointerException none

end Throwable

/-- String concatenation with a reference that may be null. -/
def concat (text : String) (message : Option String) : String := text ++ message.getD "null"

section Calls

variable {α β ε : Type} {f : α → Except ε β} {x : Except ε α}

theorem ok_of_map {g : α → β} {y : β} (h : x.map g = .ok y) : ∃ a, x = .ok a ∧ g a = y := by
  cases x with
  | error e => cases h
  | ok a => exact ⟨a, rfl, Except.ok.inj h⟩

theorem ok_of_bind {y : β} (h : x >>= f = .ok y) : ∃ a, x = .ok a ∧ f a = .ok y := by
  cases x with
  | error e => cases h
  | ok a => exact ⟨a, rfl, h⟩

/-- A call fails in its first part, or in what follows on it. -/
theorem error_of_bind {e : ε} (h : x >>= f = .error e) :
    x = .error e ∨ ∃ a, x = .ok a ∧ f a = .error e := by
  cases x with
  | error e' =>
    cases h
    exact Or.inl rfl
  | ok a => exact Or.inr ⟨a, rfl, h⟩

theorem exists_ok_bind_iff :
    (∃ y, x >>= f = .ok y) ↔ ∃ a, x = .ok a ∧ ∃ y, f a = .ok y := by
  constructor
  · rintro ⟨y, h⟩
    obtain ⟨a, hx, h⟩ := ok_of_bind h
    exact ⟨a, hx, y, h⟩
  · rintro ⟨a, rfl, h⟩
    exact h

end Calls

end MySchedule.Java
