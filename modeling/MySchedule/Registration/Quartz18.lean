import MySchedule.Registration.FactoryBean

/-!
# The Quartz 1.8 copy of SchedulerExtFactoryBean

Quartz 1.8 has no key objects: jobs and triggers are looked up and rescheduled by
name and group. Otherwise the copy repeats the Quartz 2.0 one, and registers the
same.
-/

namespace MySchedule.Registration

open Interaction Java

def JobDetail.getName (j : JobDetail) : String := j.key.name

def JobDetail.getGroup (j : JobDetail) : String := j.key.group

def Trigger.getName (t : Trigger) : String := t.key.name

def Trigger.getGroup (t : Trigger) : String := t.key.group

namespace Quartz18

namespace Scheduler

/-- A lookup by name and group; null stands for asking a null job detail for them. -/
def getJobDetail (jobName jobGroup : Option String) : BeanM (Option JobDetail) :=
  Body.perform (F := quartz) (.getJobDetail (jobName.bind fun name => jobGroup.map (⟨name, ·⟩)))

def getTrigger (triggerName triggerGroup : String) : BeanM (Option Trigger) :=
  Body.perform (F := quartz) (.getTrigger ⟨triggerName, triggerGroup⟩)

def rescheduleJob (triggerName triggerGroup : String) (trigger : Trigger) :
    BeanM (Option FireTime) :=
  Body.perform (F := quartz) (.rescheduleJob ⟨triggerName, triggerGroup⟩ trigger)

end Scheduler

section

variable (cfg : BeanConfig)

def mayAddJob (jobDetail : Option JobDetail) : BeanM Bool :=
  if cfg.overwriteExistingJobs then pure true
  else do
    return (← Scheduler.getJobDetail (jobDetail.map JobDetail.getName)
      (jobDetail.map JobDetail.getGroup)).isNone

def addJobToScheduler (jobDetail : Option JobDetail) : BeanM Bool := do
  if ← mayAddJob cfg jobDetail then
    Registration.Scheduler.addJob jobDetail true
    return true
  else
    return false

def registerAwareJob (jobDetail : Option JobDetail) : BeanM Unit := do
  match (← get).jobDetails with
  | none => throw .nullPointer
  | some jobDetails =>
    if !containsJob jobDetails jobDetail then
      if ← addJobToScheduler cfg jobDetail then
        set (⟨some (jobDetails ++ jobDetail.toList)⟩ : Bean)

def registerJobOfTrigger (trigger : Trigger) : BeanM Unit :=
  match trigger.kind with
  | .plain => pure ()
  | .jobDetailAware jobDetail => registerAwareJob cfg jobDetail

def scheduleNewTrigger (trigger : Trigger) : BeanM Unit :=
  tryCatch (discard (Registration.Scheduler.scheduleJob trigger)) fun ex =>
    if ex.isObjectAlreadyExists then
      if cfg.overwriteExistingJobs then
        discard (Scheduler.rescheduleJob trigger.getName trigger.getGroup trigger)
      else pure ()
    else throw ex

def storeTrigger (triggerExists : Bool) (trigger : Trigger) : BeanM Unit :=
  if !triggerExists then scheduleNewTrigger cfg trigger
  else discard (Scheduler.rescheduleJob trigger.getName trigger.getGroup trigger)

def addTriggerToScheduler (trigger : Trigger) : BeanM Bool := do
  let triggerExists := (← Scheduler.getTrigger trigger.getName trigger.getGroup).isSome
  if !triggerExists || cfg.overwriteExistingJobs then
    registerJobOfTrigger cfg trigger
    storeTrigger cfg triggerExists trigger
    return true
  else
    return false

def registerJobDetails : BeanM Unit := do
  match (← get).jobDetails with
  | none => set (⟨some []⟩ : Bean)
  | some jobDetails =>
    jobDetails.forM fun jobDetail => discard (addJobToScheduler cfg (some jobDetail))

def registerTriggers : BeanM Unit :=
  (cfg.triggers.getD []).forM fun trigger => discard (addTriggerToScheduler cfg trigger)

def registerAll : BeanM Unit := do
  processDataLocations cfg
  registerJobDetails cfg
  registerCalendars cfg
  registerTriggers cfg

def registerJobsAndTriggers : BeanM Unit := do
  ifTransactional cfg TransactionManager.getTransaction
  tryCatch (registerAll cfg) (abandonRegistration cfg)
  ifTransactional cfg TransactionManager.commit

variable {cfg}

theorem getJobDetail_eq (jobDetail : Option JobDetail) :
    Scheduler.getJobDetail (jobDetail.map JobDetail.getName) (jobDetail.map JobDetail.getGroup) =
      Registration.Scheduler.getJobDetail (jobDetail.map JobDetail.key) := by
  cases jobDetail <;> rfl

theorem addJobToScheduler_eq : addJobToScheduler cfg = Registration.addJobToScheduler cfg := by
  funext jobDetail
  simp only [addJobToScheduler, Registration.addJobToScheduler, mayAddJob, Registration.mayAddJob,
    getJobDetail_eq]

theorem registerJobOfTrigger_eq :
    registerJobOfTrigger cfg = Registration.registerJobOfTrigger cfg := by
  funext trigger
  unfold registerJobOfTrigger registerAwareJob
  simp only [addJobToScheduler_eq]
  rfl

theorem addTriggerToScheduler_eq :
    addTriggerToScheduler cfg = Registration.addTriggerToScheduler cfg := by
  funext trigger
  unfold addTriggerToScheduler
  simp only [registerJobOfTrigger_eq]
  rfl

/-- Both copies register the same, call by call. -/
theorem registerJobsAndTriggers_eq :
    registerJobsAndTriggers cfg = Registration.registerJobsAndTriggers cfg := by
  unfold registerJobsAndTriggers registerAll registerJobDetails registerTriggers
  simp only [addJobToScheduler_eq, addTriggerToScheduler_eq]
  rfl

end

end Quartz18

end MySchedule.Registration
