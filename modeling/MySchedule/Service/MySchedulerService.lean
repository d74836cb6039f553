import MySchedule.Interaction.Surroundings
import MySchedule.Server.JobRuns

/-!
# The transactional service

`MySchedulerServiceImpl` on a job store in a database, with the proxy that
`@Transactional` puts around its methods: what a method does is only in the
transaction until that is committed. Any call may fail, as far as its `throws`
clause lets it.
-/

namespace MySchedule.Service

open Interaction Java Keyed Machines
open Registration (JobKey TriggerKey alreadyExists)
open Cleanup (JobStore StoredJob StoredTrigger)
open Server (JobDetail jobKey putJob hasJob notDurable)

/-- The calls of the service on the scheduler, and of the proxy on the transaction manager. -/
inductive ServiceCall
  | getTransaction
  | commit
  | rollback
  | addJob (job : JobDetail) (replace : Bool)
  | getTriggerGroupNames
  | getTriggerNames (group : String)
  | unscheduleJob (name group : String)
  | getJobGroupNames
  | getJobNames (group : String)
  | deleteJob (name group : String)
  | getJobDetail (name group : String)
  | getTrigger (name group : String)

def ServiceCall.Answer : ServiceCall → Type
  | .getTriggerGroupNames | .getTriggerNames _ => List String
  | .getJobGroupNames | .getJobNames _ => List String
  | .unscheduleJob _ _ | .deleteJob _ _ => Bool
  | .getJobDetail _ _ => Option StoredJob
  | .getTrigger _ _ => Option StoredTrigger
  | _ => Unit

abbrev serviceCalls : Effects := ⟨ServiceCall, ServiceCall.Answer, Throwable⟩

/-- An argument of a log message. -/
inductive Arg
  | bool (b : Bool)
  | text (s : String)
  | count (n : Nat)
  | job (job : Option StoredJob)
  | trigger (trigger : Option StoredTrigger)
  deriving DecidableEq, Repr

inductive Level
  | debug
  | info
  deriving DecidableEq, Repr

/-- A log message before its arguments are put in. -/
structure LogLine where
  level : Level
  message : String
  args : List Arg
  deriving DecidableEq, Repr

/-- A method of the service; what it has logged survives an exception. -/
abbrev ServiceM (α : Type) : Type := Body serviceCalls (List LogLine) α

def logger.log (line : LogLine) : ServiceM Unit := do
  let lines ← get
  set (lines ++ [line])

def logger.info (message : String) (args : List Arg) : ServiceM Unit :=
  logger.log ⟨.info, message, args⟩

def logger.debug (message : String) : ServiceM Unit := logger.log ⟨.debug, message, []⟩

def scheduler.addJob (job : JobDetail) (replace : Bool) : ServiceM Unit :=
  Body.perform (F := serviceCalls) (.addJob job replace)

def scheduler.getTriggerGroupNames : ServiceM (List String) :=
  Body.perform (F := serviceCalls) .getTriggerGroupNames

def scheduler.getTriggerNames (group : String) : ServiceM (List String) :=
  Body.perform (F := serviceCalls) (.getTriggerNames group)

def scheduler.unscheduleJob (name group : String) : ServiceM Bool :=
  Body.perform (F := serviceCalls) (.unscheduleJob name group)

def scheduler.getJobGroupNames : ServiceM (List String) :=
  Body.perform (F := serviceCalls) .getJobGroupNames

def scheduler.getJobNames (group : String) : ServiceM (List String) :=
  Body.perform (F := serviceCalls) (.getJobNames group)

def scheduler.deleteJob (name group : String) : ServiceM Bool :=
  Body.perform (F := serviceCalls) (.deleteJob name group)

def scheduler.getJobDetail (name group : String) : ServiceM (Option StoredJob) :=
  Body.perform (F := serviceCalls) (.getJobDetail name group)

def scheduler.getTrigger (name group : String) : ServiceM (Option StoredTrigger) :=
  Body.perform (F := serviceCalls) (.getTrigger name group)

/-- The loops of the service: over groups and the names of each, with a counter. -/
def countNames (groups : List String) (getNames : String → ServiceM (List String))
    (visit : String → String → ServiceM Unit) : ServiceM Nat :=
  groups.foldlM (fun count group => do
    let names ← getNames group
    names.foldlM (fun count name => do
      visit name group
      return count + 1) count) 0

def scheduleJobs : ServiceM Unit := do
  logger.info "Scheduling job now." []
  let job1 : JobDetail := ⟨jobKey "job1", "SimpleJob", true, .empty⟩
  scheduler.addJob job1 false
  let job2 : JobDetail := ⟨jobKey "job2", "SimpleJob", false, .empty⟩
  scheduler.addJob job2 false

def updateJobs : ServiceM Unit := pure ()

/-- One turn of the first loop of `removeJobs`. -/
def unschedule (name group : String) : ServiceM Unit := do
  let ret ← scheduler.unscheduleJob name group
  logger.info "Trigger unscheduled: \x7b\x7d. \x7b\x7d \x7b\x7d."
    [.bool ret, .text name, .text group]

/-- One turn of the second loop of `removeJobs`. -/
def deleteOrphaned (name group : String) : ServiceM Unit := do
  let ret ← scheduler.deleteJob name group
  logger.info "Orphaned Job deleted: \x7b\x7d. \x7b\x7d \x7b\x7d."
    [.bool ret, .text name, .text group]

def removeJobs : ServiceM Unit := do
  let groups ← scheduler.getTriggerGroupNames
  let triggerCount ← countNames groups scheduler.getTriggerNames unschedule
  logger.info "\x7b\x7d triggers unscheduled." [.count triggerCount]
  let groups ← scheduler.getJobGroupNames
  let jobCount ← countNames groups scheduler.getJobNames deleteOrphaned
  logger.info "\x7b\x7d orphaned jobs deleted." [.count jobCount]

/-- One turn of the first loop of `showJobs`. -/
def showJob (name group : String) : ServiceM Unit := do
  let job ← scheduler.getJobDetail name group
  logger.info "Job: \x7b\x7d" [.job job]

/-- One turn of the second loop of `showJobs`. -/
def showTrigger (name group : String) : ServiceM Unit := do
  let trigger ← scheduler.getTrigger name group
  logger.info "Trigger: \x7b\x7d" [.trigger trigger]

def showJobs : ServiceM Unit := do
  logger.debug "Querying scheduler info."
  let groups ← scheduler.getJobGroupNames
  let jobCount ← countNames groups scheduler.getJobNames showJob
  logger.info "\x7b\x7d jobs found." [.count jobCount]
  let groups ← scheduler.getTriggerGroupNames
  let triggerCount ← countNames groups scheduler.getTriggerNames showTrigger
  logger.info "\x7b\x7d triggers found." [.count triggerCount]

/-- The methods of `MySchedulerService`. -/
inductive ServiceMethod
  | scheduleJobs
  | updateJobs
  | removeJobs
  | showJobs
  deriving DecidableEq, Repr

def ServiceMethod.body : ServiceMethod → ServiceM Unit
  | .scheduleJobs => Service.scheduleJobs
  | .updateJobs => Service.updateJobs
  | .removeJobs => Service.removeJobs
  | .showJobs => Service.showJobs

/-! ## Transactions -/

/-- `ex instanceof RuntimeException || ex instanceof Error`. -/
def isUnchecked (ex : Throwable) : Bool :=
  match ex.cls with
  | .transactionException | .nullPointerException | .runtimeException _ | .error _ => true
  | _ => false

/-- Whether an exception rolls back: one of the classes of `rollbackFor`, or any unchecked one. -/
def rollbackOn (rollbackFor : Throwable → Bool) (ex : Throwable) : Bool :=
  rollbackFor ex || isUnchecked ex

def transactionManager.getTransaction : ServiceM Unit :=
  Body.perform (F := serviceCalls) .getTransaction

def transactionManager.commit : ServiceM Unit := Body.perform (F := serviceCalls) .commit

def transactionManager.rollback : ServiceM Unit := Body.perform (F := serviceCalls) .rollback

/-- The end of a transaction whose method has thrown. -/
def completeAfterThrowing (rollbackFor : Throwable → Bool) (ex : Throwable) : ServiceM Unit :=
  if rollbackOn rollbackFor ex then transactionManager.rollback else transactionManager.commit

/-- `@Transactional(rollbackFor=…)` around a method. -/
def transactional (rollbackFor : Throwable → Bool) (m : ServiceM Unit) : ServiceM Unit := do
  transactionManager.getTransaction
  tryCatch m fun ex => do
    completeAfterThrowing rollbackFor ex
    throw ex
  transactionManager.commit

/-- The job store as it is committed, and as the open transaction has it. -/
structure Database where
  committed : JobStore
  working : Option JobStore

/-- The store that a call of the scheduler sees. -/
def Database.current (d : Database) : JobStore := d.working.getD d.committed

/-- What a call of the scheduler leaves. -/
def Database.store (d : Database) (s : JobStore) : Database :=
  match d.working with
  | none => { d with committed := s }
  | some _ => { d with working := some s }

/-- What a query or a removal is answered, and the store it leaves. -/
def Database.answer {α : Type} (d : Database) (r : Except Throwable (α × JobStore)) :
    Except Throwable α × Database :=
  match r with
  | .ok (a, s) => (.ok a, d.store s)
  | .error ex => (.error ex, d)

def addJob (job : JobDetail) (replace : Bool) (s : JobStore) :
    Except Throwable (Unit × JobStore) :=
  if !replace && !job.durable then .error notDurable
  else if !replace && hasJob s job.key then .error alreadyExists
  else .ok ((), putJob s ⟨job.key, job.durable⟩)

def getJobDetail (key : JobKey) (s : JobStore) : Option StoredJob := s.jobs.find? (·.key = key)

def getTrigger (key : TriggerKey) (s : JobStore) : Option StoredTrigger :=
  s.triggers.find? (·.key = key)

/-- The scheduler and the transaction manager on their database. -/
def exec : Handler serviceCalls Database
  | .getTransaction, d => (.ok (), { d with working := some d.committed })
  | .commit, d => (.ok (), ⟨d.current, none⟩)
  | .rollback, d => (.ok (), { d with working := none })
  | .addJob job replace, d => d.answer (addJob job replace d.current)
  | .getTriggerGroupNames, d => (Cleanup.getTriggerGroupNames d.current, d)
  | .getTriggerNames group, d => (Cleanup.getTriggerNames group d.current, d)
  | .unscheduleJob name group, d => d.answer (Cleanup.unscheduleJob name group d.current)
  | .getJobGroupNames, d => (Cleanup.getJobGroupNames d.current, d)
  | .getJobNames group, d => (Cleanup.getJobNames group d.current, d)
  | .deleteJob name group, d => d.answer (Cleanup.deleteJob ⟨name, group⟩ d.current)
  | .getJobDetail name group, d => (.ok (getJobDetail ⟨name, group⟩ d.current), d)
  | .getTrigger name group, d => (.ok (getTrigger ⟨name, group⟩ d.current), d)

/-- What a method of the scheduler or of the transaction manager may throw. -/
def mayThrow (ex : Throwable) : Prop := ex.isSchedulerException = true ∨ isUnchecked ex = true

/-- Which calls of a request fail and how, and what the database is then. -/
structure Faults where
  fails : Nat → ServiceCall → Option Throwable
  declared : ∀ n c ex, fails n c = some ex → mayThrow ex
  /-- The database after a call that has failed. -/
  lost : Nat → ServiceCall → Database → Database
  /-- Only a commit commits anything. -/
  uncommitted : ∀ n c d, c ≠ .commit → (lost n c d).committed = d.committed
  /-- A commit that has failed has either taken place or not. -/
  atomic : ∀ n d,
    (lost n .commit d).committed = d.committed ∨ (lost n .commit d).committed = d.current

def Faults.serve (f : Faults) : Handler serviceCalls (Database × Nat) :=
  faulty f.fails f.lost exec

/-- A call of the service. -/
structure Request where
  method : ServiceMethod
  faults : Faults

/-- How a request ended, and what it logged. -/
structure Reply where
  result : Except Throwable Unit
  log : List LogLine

/-- A request on a committed store: the reply, and the store that is committed then. -/
def Request.onto (rollbackFor : Throwable → Bool) (r : Request) (s : JobStore) :
    Reply × JobStore :=
  let out := Body.runWith r.faults.serve (transactional rollbackFor r.method.body) []
    (⟨s, none⟩, 0)
  (⟨out.1.1, out.1.2⟩, out.2.1.committed)

/-- The calls that a request makes, with their answers. -/
def Request.calls (rollbackFor : Throwable → Bool) (r : Request) (s : JobStore) :
    List (Event serviceCalls) :=
  Body.calls r.faults.serve (transactional rollbackFor r.method.body) [] (⟨s, none⟩, 0)

/-- The service, request by request. -/
def service (rollbackFor : Throwable → Bool) : Machine JobStore Request Reply where
  step s r := r.onto rollbackFor s

/-- `@Transactional(rollbackFor={SchedulerException.class})`. -/
def schedulerExceptions (ex : Throwable) : Bool := ex.isSchedulerException

end MySchedule.Service
