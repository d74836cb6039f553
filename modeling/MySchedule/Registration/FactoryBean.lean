import MySchedule.Registration.Scheduler
import Mathlib.Data.List.AList

/-!
# SchedulerExtFactoryBean

The registration of jobs, calendars and triggers when the factory bean starts.
Configuration that the registration only reads is `BeanConfig`; its one mutable
field, the list of job details that trigger registration adds to, is the private
state and is kept when a registration is aborted.
-/

namespace MySchedule.Registration

open Interaction Java

/-- The fields of the bean that its setters fill and its registration reads. -/
structure BeanConfig where
  /-- Whether `setTransactionManager` was given one. -/
  transactionManager : Bool
  overwriteExistingJobs : Bool
  jobSchedulingDataLocations : Option (List String)
  /-- What `setJobDetails` copied into the bean's list; null when it was not called. -/
  jobDetails : Option (List JobDetail)
  calendars : Option (AList fun _ : String => Calendar)
  triggers : Option (List Trigger)

/-- The bean's `jobDetails` field, null until it is set. -/
structure Bean where
  jobDetails : Option (List JobDetail)
  deriving DecidableEq, Repr

/-- A bean just configured. -/
def BeanConfig.freshBean (cfg : BeanConfig) : Bean := ⟨cfg.jobDetails⟩

/-- Code of the bean. -/
abbrev BeanM (α : Type) : Type := Body quartz Bean α

/-! Calls on the transaction manager, on the data processor and on `getScheduler()`. -/

def TransactionManager.getTransaction : BeanM Unit := Body.perform (F := quartz) .getTransaction

def TransactionManager.commit : BeanM Unit := Body.perform (F := quartz) .commit

def TransactionManager.rollback : BeanM Unit := Body.perform (F := quartz) .rollback

/-- The data processor, with the class load helpers that it is given. -/
def DataProcessor.new : BeanM Unit := Body.perform (F := quartz) .newXMLSchedulingDataProcessor

def DataProcessor.processFileAndScheduleJobs (location : String) : BeanM Unit :=
  Body.perform (F := quartz) (.processFileAndScheduleJobs location)

namespace Scheduler

def getJobDetail (key : Option JobKey) : BeanM (Option JobDetail) :=
  Body.perform (F := quartz) (.getJobDetail key)

def addJob (jobDetail : Option JobDetail) (replace : Bool) : BeanM Unit :=
  Body.perform (F := quartz) (.addJob jobDetail replace)

def addCalendar (calName : String) (calendar : Calendar) (replace updateTriggers : Bool) :
    BeanM Unit :=
  Body.perform (F := quartz) (.addCalendar calName calendar replace updateTriggers)

def getTrigger (key : TriggerKey) : BeanM (Option Trigger) :=
  Body.perform (F := quartz) (.getTrigger key)

def scheduleJob (trigger : Trigger) : BeanM FireTime :=
  Body.perform (F := quartz) (.scheduleJob trigger)

def rescheduleJob (key : TriggerKey) (trigger : Trigger) : BeanM (Option FireTime) :=
  Body.perform (F := quartz) (.rescheduleJob key trigger)

end Scheduler

/-- `List.contains`, by the equality of job details; no list entry is null. -/
def containsJob (jobDetails : List JobDetail) : Option JobDetail → Bool
  | none => false
  | some j => jobDetails.any (·.equals j)

section

variable (cfg : BeanConfig)

/-- The condition of `addJobToScheduler`; the scheduler is asked only when existing jobs
are kept. -/
def mayAddJob (jobDetail : Option JobDetail) : BeanM Bool :=
  if cfg.overwriteExistingJobs then pure true
  else do return (← Scheduler.getJobDetail (jobDetail.map JobDetail.key)).isNone

/-- Add the job to the scheduler, if it is not there or may be overwritten. -/
def addJobToScheduler (jobDetail : Option JobDetail) : BeanM Bool := do
  if ← mayAddJob cfg jobDetail then
    Scheduler.addJob jobDetail true
    return true
  else
    return false

/-- Register the job detail a trigger is aware of, unless the bean's list has it. A detail
that was added to the scheduler is added to the list. -/
def registerAwareJob (jobDetail : Option JobDetail) : BeanM Unit := do
  match (← get).jobDetails with
  | none => throw .nullPointer
  | some jobDetails =>
    if !containsJob jobDetails jobDetail then
      if ← addJobToScheduler cfg jobDetail then
        set (⟨some (jobDetails ++ jobDetail.toList)⟩ : Bean)

/-- `if (trigger instanceof JobDetailAwareTrigger)`. -/
def registerJobOfTrigger (trigger : Trigger) : BeanM Unit :=
  match trigger.kind with
  | .plain => pure ()
  | .jobDetailAware jobDetail => registerAwareJob cfg jobDetail

/-- Schedule a trigger that was not there; one that has appeared since is replaced only
when existing data may be overwritten. -/
def scheduleNewTrigger (trigger : Trigger) : BeanM Unit :=
  tryCatch (discard (Scheduler.scheduleJob trigger)) fun ex =>
    if ex.isObjectAlreadyExists then
      if cfg.overwriteExistingJobs then discard (Scheduler.rescheduleJob trigger.key trigger)
      else pure ()
    else throw ex

/-- Store the trigger, as a new one or in place of the one that is there. -/
def storeTrigger (triggerExists : Bool) (trigger : Trigger) : BeanM Unit :=
  if !triggerExists then scheduleNewTrigger cfg trigger
  else discard (Scheduler.rescheduleJob trigger.key trigger)

/-- Add the trigger to the scheduler, with the job detail it is aware of. -/
def addTriggerToScheduler (trigger : Trigger) : BeanM Bool := do
  let triggerExists := (← Scheduler.getTrigger trigger.key).isSome
  if !triggerExists || cfg.overwriteExistingJobs then
    registerJobOfTrigger cfg trigger
    storeTrigger cfg triggerExists trigger
    return true
  else
    return false

/-- The XML files, each handed to the one data processor. -/
def processDataLocations : BeanM Unit :=
  match cfg.jobSchedulingDataLocations with
  | none => pure ()
  | some locations => do
    DataProcessor.new
    locations.forM DataProcessor.processFileAndScheduleJobs

/-- The configured jobs; without any, an empty list for the triggers to add to. -/
def registerJobDetails : BeanM Unit := do
  match (← get).jobDetails with
  | none => set (⟨some []⟩ : Bean)
  | some jobDetails =>
    jobDetails.forM fun jobDetail => discard (addJobToScheduler cfg (some jobDetail))

/-- The configured calendars, replacing those of the same names. -/
def registerCalendars : BeanM Unit :=
  ((cfg.calendars.map AList.entries).getD []).forM fun entry =>
    Scheduler.addCalendar entry.1 entry.2 true true

/-- The configured triggers. -/
def registerTriggers : BeanM Unit :=
  (cfg.triggers.getD []).forM fun trigger => discard (addTriggerToScheduler cfg trigger)

/-- What `registerJobsAndTriggers` does inside its `try`. -/
def registerAll : BeanM Unit := do
  processDataLocations cfg
  registerJobDetails cfg
  registerCalendars cfg
  registerTriggers cfg

/-- The exception that leaves the registration after `ex` was caught. -/
def registrationFailure (ex : Throwable) : Throwable :=
  if ex.isSchedulerException then ex
  else .caused .schedulerException
    (some (concat "Registration of jobs and triggers failed: " ex.getMessage)) ex

/-- A step on the transaction, if there is a transaction manager. -/
def ifTransactional (m : BeanM Unit) : BeanM Unit :=
  if cfg.transactionManager then m else pure ()

/-- What `registerJobsAndTriggers` does with a throwable it caught. An exception of the
rollback overrides the one that was caught. -/
def abandonRegistration (ex : Throwable) : BeanM Unit := do
  ifTransactional cfg TransactionManager.rollback
  throw (registrationFailure ex)

/-- Register jobs and triggers, within a transaction if there is a manager. -/
def registerJobsAndTriggers : BeanM Unit := do
  ifTransactional cfg TransactionManager.getTransaction
  tryCatch (registerAll cfg) (abandonRegistration cfg)
  ifTransactional cfg TransactionManager.commit

end

end MySchedule.Registration
