import MySchedule.Server.JobRuns

/-!
# The two client beans

`QuartzClientBean` for Quartz 1.8 and for Quartz 2.0, which add and remove a job of one
name: the first schedules it by a cron expression and unschedules the trigger, the second
schedules it once and deletes the job. The scheduler is in standby, so that no trigger fires.
-/

namespace MySchedule.Client

open Java Keyed Machines
open Registration (JobKey TriggerKey FireTime alreadyExists)
open Cleanup (JobStore StoredJob StoredTrigger)
open Server (DEFAULT_GROUP JobDetail jobKey triggerKey putJob putTrigger mem_putJob hasJob
  hasTrigger)

/-- The schedule of a trigger. -/
inductive Schedule
  | cron (cronExpr : String)
  | simple (interval repeatCount : Int)
  deriving DecidableEq, Repr

/-- A trigger for the job that it is scheduled with. -/
structure Trigger where
  key : TriggerKey
  schedule : Schedule
  deriving DecidableEq, Repr

/-- The jobs and triggers of a scheduler, and the schedules of its triggers. Of a trigger that is
not there the schedule means nothing. -/
structure ClientStore where
  entries : JobStore
  scheduleOf : TriggerKey → Schedule

/-- The scheduler's store, and what a bean has logged. -/
structure Session where
  store : ClientStore
  log : List String

/-- A method of a bean; what it has done before an exception stays done. -/
abbrev ClientM (α : Type) : Type := ExceptT Throwable (StateM Session) α

def logger.info (message : String) : ClientM Unit :=
  modify fun x => { x with log := x.log ++ [message] }

def logger.error (message : String) : ClientM Unit := logger.info message

/-- What a call of the scheduler comes to. -/
def answered {α : Type} (x : Session) : Except Throwable (α × ClientStore) → ClientM α
  | .ok (a, s) => do
    set { x with store := s }
    return a
  | .error ex => throw ex

/-- A call of the scheduler. -/
def call {α : Type} (f : ClientStore → Except Throwable (α × ClientStore)) : ClientM α := do
  let x ← get
  answered x (f x.store)

/-- A removal, which changes no schedule. -/
def removal {α : Type} (f : JobStore → Except Throwable (α × JobStore)) : ClientM α :=
  call fun s => (f s.entries).map fun out => (out.1, { s with entries := out.2 })

/-- A query of the scheduler. -/
def query {α : Type} (f : JobStore → Except Throwable α) : ClientM α :=
  call fun s => (f s.entries).map (·, s)

def storeJobAndTrigger (job : JobDetail) (trigger : Trigger) (s : ClientStore) :
    Except Throwable (FireTime × ClientStore) :=
  if hasJob s.entries job.key || hasTrigger s.entries trigger.key then .error alreadyExists
  else .ok (⟨⟩, ⟨putTrigger (putJob s.entries ⟨job.key, job.durable⟩) ⟨trigger.key, job.key⟩
    (mem_putJob s.entries _), Function.update s.scheduleOf trigger.key trigger.schedule⟩)

def scheduler.scheduleJob (job : JobDetail) (trigger : Trigger) : ClientM FireTime :=
  call (storeJobAndTrigger job trigger)

def scheduler.unscheduleJob (name group : String) : ClientM Bool :=
  removal (Cleanup.unscheduleJob name group)

def scheduler.deleteJob (key : JobKey) : ClientM Bool := removal (Cleanup.deleteJob key)

def scheduler.getTriggerGroupNames : ClientM (List String) := query Cleanup.getTriggerGroupNames

def scheduler.getTriggerNames (group : String) : ClientM (List String) :=
  query (Cleanup.getTriggerNames group)

/-- `ex instanceof Exception`. -/
def isException (ex : Throwable) : Bool :=
  match ex.cls with
  | .error _ => false
  | _ => true

section

variable (toString : Throwable → String)

/-- `catch (Exception e) { throw new RuntimeException(e); }`. -/
def wrapped {α : Type} (ex : Throwable) : ClientM α :=
  if isException ex then throw (Server.runtimeException toString ex) else throw ex

namespace Quartz18

def addJob1 : ClientM Unit := do
  let cronExpr := "* * * * * ?"
  let job : JobDetail := ⟨jobKey "job1", "SimpleJob", false, .empty⟩
  let trigger : Trigger := ⟨⟨"job1", DEFAULT_GROUP⟩, .cron cronExpr⟩
  logger.info ("Scheduling cron job: " ++ cronExpr)
  discard (scheduler.scheduleJob job trigger)
  logger.info "Job has been added."

def removeJob1 : ClientM Unit := do
  let triggerName := "job1"
  logger.info ("Removing job/trigger " ++ triggerName ++ " from scheduler.")
  let ret ← scheduler.unscheduleJob triggerName DEFAULT_GROUP
  if ret then logger.info "Job/trigger has been removed"
  else logger.error "Failed to remove job/trigger."

/-- The names of all triggers, each with its group. -/
def getTriggerNames : ClientM (List (String × String)) :=
  tryCatch (do
    let triggerGroups ← scheduler.getTriggerGroupNames
    triggerGroups.foldlM (fun list triggerGroup => do
      let triggerNames ← scheduler.getTriggerNames triggerGroup
      return list ++ triggerNames.map (·, triggerGroup)) []) (wrapped toString)

def showTriggerNames : ClientM Unit := do
  let triggers ← getTriggerNames toString
  if triggers.length = 0 then logger.info "There is no triggers in scheduler yet."
  else triggers.forM fun pair => logger.info ("Trigger: " ++ pair.2 ++ "." ++ pair.1)

/-- What `runMethodName` names. -/
def invoke (runMethodName : Option String) : ClientM Unit :=
  match runMethodName with
  | none => throw .nullPointer
  | some runMethodName =>
    if runMethodName = "showTriggerNames" then showTriggerNames toString
    else if runMethodName = "addJob1" then addJob1
    else if runMethodName = "removeJob1" then removeJob1
    else throw (.plain (.checkedException "Exception")
      (some ("Unkonwn method name " ++ runMethodName)))

def run (runMethodName : Option String) : ClientM Unit := do
  logger.info (concat "Invoking " runMethodName)
  tryCatch (invoke toString runMethodName) (wrapped toString)

end Quartz18

end

namespace Quartz20

/-- `text` is the job's `toString`. -/
def runAddJob (text : JobDetail → String) : ClientM Unit := do
  let job : JobDetail := ⟨jobKey "job1", "SimpleJob", false, .empty⟩
  let trigger : Trigger := ⟨triggerKey "job1", .simple 0 0⟩
  logger.info ("Scheduling simple job: " ++ text job)
  discard (scheduler.scheduleJob job trigger)
  logger.info "Job has been added."

def runRemoveJob : ClientM Unit := do
  let triggerName := "job1"
  logger.info ("Removing job/trigger " ++ triggerName ++ " from scheduler.")
  let ret ← scheduler.deleteJob (jobKey "job1")
  if ret then logger.info "Job/trigger has been removed"
  else logger.error "Failed to remove job/trigger."

end Quartz20

/-- What the beans are used for. -/
inductive Use
  | add
  | remove
  deriving DecidableEq, Repr

/-- A method on a store: how it ended, what it logged, and the store that it left. -/
def perform (m : ClientM Unit) (s : ClientStore) :
    (Except Throwable Unit × List String) × ClientStore :=
  let out := m.run.run ⟨s, []⟩
  ((out.1, out.2.log), out.2.store)

/-- The 1.8 bean, run by run, each with its `runMethodName`. -/
def client18 (toString : Throwable → String) :
    Machine ClientStore (Option String) (Except Throwable Unit × List String) where
  step s runMethodName := perform (Quartz18.run toString runMethodName) s

/-- The 2.0 bean, use by use. -/
def client20 (text : JobDetail → String) :
    Machine ClientStore Use (Except Throwable Unit × List String) where
  step
    | s, .add => perform (Quartz20.runAddJob text) s
    | s, .remove => perform Quartz20.runRemoveJob s

/-- The use that a method of the 1.8 bean is of. -/
def use (runMethodName : Option String) : Option Use :=
  if runMethodName = some "addJob1" then some .add
  else if runMethodName = some "removeJob1" then some .remove
  else none

end MySchedule.Client
