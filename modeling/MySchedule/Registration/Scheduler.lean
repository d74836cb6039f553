import MySchedule.Interaction.Program
import MySchedule.Java.Throwable
import Mathlib.Logic.Function.Basic

/-!
# The shared scheduler

The Quartz scheduler as its three maps, and the calls a registration makes on it,
on the transaction manager and on the XML data processor. Every call is atomic.
What Quartz does with a data file is not part of this repository, so the effect
of `processFileAndScheduleJobs` is a parameter.
-/

namespace MySchedule.Registration

open Interaction Java

/-- A job's name and group. -/
structure JobKey where
  name : String
  group : String
  deriving DecidableEq, Repr

/-- A trigger's name and group. -/
structure TriggerKey where
  name : String
  group : String
  deriving DecidableEq, Repr

/-- A job detail: its key, and everything else it says, compared as a whole. -/
structure JobDetail where
  key : JobKey
  definition : String
  deriving DecidableEq, Repr

/-- `JobDetail.equals`: two details are equal when their keys are. -/
def JobDetail.equals (j j' : JobDetail) : Bool := j.key = j'.key

/-- Whether a trigger is a `JobDetailAwareTrigger`, and the detail it then carries,
which may be null. -/
inductive TriggerKind
  | plain
  | jobDetailAware (jobDetail : Option JobDetail)
  deriving DecidableEq, Repr

/-- A trigger: its key, the job it fires, its kind, and the rest of its definition. -/
structure Trigger where
  key : TriggerKey
  jobKey : JobKey
  kind : TriggerKind
  definition : String
  deriving DecidableEq, Repr

/-- A Quartz calendar, by its definition. -/
structure Calendar where
  definition : String
  deriving DecidableEq, Repr

/-- The jobs, triggers and calendars of a scheduler. -/
@[ext]
structure Store where
  jobs : JobKey → Option JobDetail
  triggers : TriggerKey → Option Trigger
  calendars : String → Option Calendar

namespace Store

def putJob (s : Store) (j : JobDetail) : Store :=
  { s with jobs := Function.update s.jobs j.key (some j) }

def putTrigger (s : Store) (k : TriggerKey) (t : Trigger) : Store :=
  { s with triggers := Function.update s.triggers k (some t) }

def putCalendar (s : Store) (name : String) (c : Calendar) : Store :=
  { s with calendars := Function.update s.calendars name (some c) }

/-- A scheduler with nothing in it. -/
def empty : Store := ⟨fun _ => none, fun _ => none, fun _ => none⟩

end Store

/-- The calls of a registration on its surroundings. A null key stands for the
`getKey` call on a null job detail, evaluated as the argument of the call. -/
inductive SchedulerCall
  | getTransaction
  | commit
  | rollback
  | newXMLSchedulingDataProcessor
  | processFileAndScheduleJobs (location : String)
  | getJobDetail (key : Option JobKey)
  | addJob (jobDetail : Option JobDetail) (replace : Bool)
  | addCalendar (calName : String) (calendar : Calendar) (replace updateTriggers : Bool)
  | getTrigger (key : TriggerKey)
  | scheduleJob (trigger : Trigger)
  | rescheduleJob (key : TriggerKey) (trigger : Trigger)
  deriving DecidableEq, Repr

/-- The first fire time that scheduling a trigger returns; nothing here reads it. -/
structure FireTime where
  deriving DecidableEq, Repr

/-- What each call returns. -/
def SchedulerCall.Answer : SchedulerCall → Type
  | .getJobDetail _ => Option JobDetail
  | .getTrigger _ => Option Trigger
  | .scheduleJob _ => FireTime
  | .rescheduleJob _ _ => Option FireTime
  | _ => Unit

/-- The effects of a registration. -/
abbrev quartz : Effects := ⟨SchedulerCall, SchedulerCall.Answer, Throwable⟩

/-- What the XML data processor does with a location on a store. -/
abbrev DataProcessor : Type := String → Store → Except Throwable Unit × Store

/-- Quartz refuses to store what is already there. -/
def alreadyExists : Throwable :=
  .plain .objectAlreadyExistsException (some "one already exists with this identification.")

/-- Quartz refuses a trigger of a job it does not have. -/
def jobDoesNotExist : Throwable :=
  .plain .schedulerException (some "The job referenced by the trigger does not exist.")

/-- The store and, while a transaction is open, the store it was opened on. -/
structure SchedulerState where
  store : Store
  savepoint : Option Store

/-- The scheduler's answer to a call, and its state afterwards. -/
def exec (processFile : DataProcessor) : Handler quartz SchedulerState
  | .getTransaction, s => (.ok (), { s with savepoint := some s.store })
  | .commit, s => (.ok (), { s with savepoint := none })
  | .rollback, s => (.ok (), ⟨s.savepoint.getD s.store, none⟩)
  | .newXMLSchedulingDataProcessor, s => (.ok (), s)
  | .processFileAndScheduleJobs location, s =>
    ((processFile location s.store).1, { s with store := (processFile location s.store).2 })
  | .getJobDetail none, s => (.error .nullPointer, s)
  | .getJobDetail (some key), s => (.ok (s.store.jobs key), s)
  | .addJob none _, s => (.error .nullPointer, s)
  | .addJob (some j) replace, s =>
    if replace = false ∧ (s.store.jobs j.key).isSome then (.error alreadyExists, s)
    else (.ok (), { s with store := s.store.putJob j })
  | .addCalendar calName c replace _, s =>
    if replace = false ∧ (s.store.calendars calName).isSome then (.error alreadyExists, s)
    else (.ok (), { s with store := s.store.putCalendar calName c })
  | .getTrigger key, s => (.ok (s.store.triggers key), s)
  | .scheduleJob t, s =>
    if (s.store.triggers t.key).isSome then (.error alreadyExists, s)
    else if (s.store.jobs t.jobKey).isNone then (.error jobDoesNotExist, s)
    else (.ok ⟨⟩, { s with store := s.store.putTrigger t.key t })
  | .rescheduleJob key t, s =>
    if (s.store.triggers key).isSome then
      (.ok (some ⟨⟩), { s with store := s.store.putTrigger key t })
    else (.ok none, s)

section

variable {processFile : DataProcessor} {s : SchedulerState} {t : Trigger} {k : TriggerKey}

/-- A trigger that is there is not scheduled again. -/
theorem exec_scheduleJob_there (h : s.store.triggers t.key ≠ none) :
    exec processFile (.scheduleJob t) s = (.error alreadyExists, s) := by
  simp [exec, Option.isSome_iff_ne_none, h]

/-- A trigger without its job is refused. -/
theorem exec_scheduleJob_noJob (h : s.store.triggers t.key = none)
    (hj : s.store.jobs t.jobKey = none) :
    exec processFile (.scheduleJob t) s = (.error jobDoesNotExist, s) := by
  simp [exec, h, hj]

theorem exec_scheduleJob_new (h : s.store.triggers t.key = none)
    (hj : s.store.jobs t.jobKey ≠ none) :
    exec processFile (.scheduleJob t) s =
      (.ok ⟨⟩, { s with store := s.store.putTrigger t.key t }) := by
  simp [exec, h, hj]

theorem exec_rescheduleJob_there (h : s.store.triggers k ≠ none) :
    exec processFile (.rescheduleJob k t) s =
      (.ok (some ⟨⟩), { s with store := s.store.putTrigger k t }) := by
  simp [exec, Option.isSome_iff_ne_none, h]

/-- Rescheduling a trigger that is not there does nothing and returns null. -/
theorem exec_rescheduleJob_absent (h : s.store.triggers k = none) :
    exec processFile (.rescheduleJob k t) s = (.ok none, s) := by
  simp [exec, h]

end

end MySchedule.Registration
