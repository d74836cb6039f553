import MySchedule.Server.QuartzServer
import MySchedule.Utilities.CreateMap

/-!
# The servers

What each subclass of `QuartzServer` does before its scheduler is started. All of
them deal with three jobs at most, and each of them always says the same on
whether to start: only `QuartzServerClean` does not.
-/

namespace MySchedule.Server

open Interaction Java Keyed
open Registration (JobKey TriggerKey FireTime)
open Utilities (createMap)

def DEFAULT_GROUP : String := "DEFAULT"

def jobKey (name : String) : JobKey := ⟨name, DEFAULT_GROUP⟩

def triggerKey (name : String) : TriggerKey := ⟨name, DEFAULT_GROUP⟩

/-- `Object.toString` of what is put into a map. -/
def Value.toString : Value → String
  | .text s => s
  | .long n => ToString.toString n

/-- A failed call of Java code outside the scheduler is thrown on. -/
def orThrow {α : Type} : Except Throwable α → ServerM α
  | .ok a => pure a
  | .error ex => throw ex

def illegalArgument (message : String) : Throwable :=
  .plain (.runtimeException "IllegalArgumentException") (some message)

/-- A simple schedule, built into a trigger. -/
def SimpleTrigger.build (key : TriggerKey) (jobKey : Option JobKey) (startTime : Option Int)
    (interval repeatCount : Int) : Except Throwable SimpleTrigger :=
  if interval < 0 then .error (illegalArgument "Repeat interval must be >= 0")
  else if repeatCount < 0 ∧ repeatCount ≠ -1 then
    .error (illegalArgument
      "Repeat count must be >= 0, use the constant REPEAT_INDEFINITELY for infinite.")
  else .ok ⟨key, jobKey, startTime, interval, repeatCount⟩

def currentTimeMillis : ServerM Int := Body.perform (F := serverCalls) .currentTimeMillis

def scheduler.scheduleJob (job : JobDetail) (trigger : SimpleTrigger) : ServerM FireTime :=
  Body.perform (F := serverCalls) (.scheduleJob job trigger)

def scheduler.addJob (job : JobDetail) (replace : Bool) : ServerM Unit :=
  Body.perform (F := serverCalls) (.addJob job replace)

def scheduler.scheduleJobs (triggersAndJobs : List (JobDetail × List SimpleTrigger))
    (replace : Bool) : ServerM Unit :=
  Body.perform (F := serverCalls) (.scheduleJobs triggersAndJobs replace)

def scheduler.getJobGroupNames : ServerM (List String) :=
  Body.perform (F := serverCalls) .getJobGroupNames

def scheduler.getJobKeys (group : String) : ServerM (List JobKey) :=
  Body.perform (F := serverCalls) (.getJobKeys group)

def scheduler.deleteJob (key : JobKey) : ServerM Bool :=
  Body.perform (F := serverCalls) (.deleteJob key)

/-- The entries of a map, to be put into another one. -/
def entries (data : LinkedMap String (Option Value)) : List (String × Option Value) :=
  data.keys.filterMap fun name => (data.get name).map (name, ·)

/-- The sum of two `long`s, which wraps. -/
def addLong (a b : Int) : Int := (a + b).bmod (2 ^ 64)

/-- A sum in the range of a `long` is that of the numbers. -/
theorem addLong_eq {a b : Int} (hlow : -(2 ^ 63) ≤ a + b) (hhigh : a + b < 2 ^ 63) :
    addLong a b = a + b := Int.bmod_eq_of_le (by omega) (by omega)

/-- The repeat count for a total number of firings; -1 stands for forever. -/
def adjustRepeatCount (repeatCount : Int) : Int :=
  if repeatCount > 0 then repeatCount - 1 else repeatCount

section

variable (toString : Throwable → String)

def createSimpleJob (name : String) (startDelay interval repeatCount : Int) (jobClass : String)
    (data : Option (LinkedMap String (Option Value))) : ServerM Unit := do
  let now ← currentTimeMillis
  let job : JobDetail :=
    ⟨jobKey name, jobClass, false, putAll .empty ((data.map entries).getD [])⟩
  let trigger ← orThrow (SimpleTrigger.build (triggerKey name) none
    (some (addLong now startDelay)) interval (adjustRepeatCount repeatCount))
  tryCatch (discard (scheduler.scheduleJob job trigger)) (rethrow toString)

/-- `SleepJob.createJobDetail`. -/
def SleepJob.createJobDetail (name : String) (sleepTime : Int) : JobDetail :=
  ⟨jobKey name, "SleepJob", false, LinkedMap.empty.put "sleepTime" (some (.long sleepTime))⟩

/-- `QuartzServer2.createJob`. -/
def QuartzServer2.createJob (name : String) (delay interval sleepTime : Int) : ServerM Unit := do
  let repeatCount := -1
  let data ← orThrow (createMap Value.toString [some (.text "sleepTime"), some (.long sleepTime)])
  createSimpleJob toString name delay interval repeatCount "SleepJob" (some data)

def QuartzServer2.beforeSchedulerStart : ServerM Bool := do
  QuartzServer2.createJob toString "job1" 5000 20000 10000
  QuartzServer2.createJob toString "job2" 10000 20000 10000
  QuartzServer2.createJob toString "job3" 15000 20000 10000
  return true

def QuartzServer3.beforeSchedulerStart : ServerM Bool := do
  tryCatch (do
    let job := SleepJob.createJobDetail "job1" 3500
    scheduler.addJob job true) (rethrow toString)
  return true

def QuartzServer4.beforeSchedulerStart : ServerM Bool := do
  tryCatch (do
    let job := SleepJob.createJobDetail "job1" 3500
    let newTrigger ← orThrow (SimpleTrigger.build (triggerKey "job1") (some (jobKey "job1")) none
      3500 (-1))
    scheduler.scheduleJobs [(job, [newTrigger])] true) (rethrow toString)
  return true

def QuartzServerClean.beforeSchedulerStart : ServerM Bool := do
  tryCatch (do
    let names ← scheduler.getJobGroupNames
    names.forM fun name => do
      let keys ← scheduler.getJobKeys name
      keys.forM fun key => discard (scheduler.deleteJob key)) (rethrow toString)
  return false

end

/-- The main classes. -/
inductive ServerClass
  | quartzServer
  | quartzServer2
  | quartzServer3
  | quartzServer4
  | quartzServerClean
  deriving DecidableEq, Repr

namespace ServerClass

variable (toString : Throwable → String)

def beforeSchedulerStart : ServerClass → ServerM Bool
  | quartzServer => pure true
  | quartzServer2 => QuartzServer2.beforeSchedulerStart toString
  | quartzServer3 => QuartzServer3.beforeSchedulerStart toString
  | quartzServer4 => QuartzServer4.beforeSchedulerStart toString
  | quartzServerClean => QuartzServerClean.beforeSchedulerStart toString

/-- No subclass overrides it. -/
def afterSchedulerStart (_ : ServerClass) : ServerM Unit := pure ()

def run (server : ServerClass) : ServerM Unit :=
  Server.run toString (server.beforeSchedulerStart toString) server.afterSchedulerStart

/-- What a server says on whether to start. -/
def answer (server : ServerClass) (cont : Bool) : Prop :=
  cont = !decide (server = quartzServerClean)

end ServerClass

/-! ## What the servers call -/

/-- The names of the jobs the servers deal with. -/
def jobNames : List String := ["job1", "job2", "job3"]

/-- The calls that prepare a scheduler here: a new job comes with a trigger of its own name, and
only `job1` is replaced. -/
def ServerCall.isMade : ServerCall → Prop
  | .scheduleJob job trigger => ∃ name ∈ jobNames, job.key = jobKey name ∧
    trigger.key = triggerKey name ∧ trigger.jobKey = none ∧ job.durable = false
  | .addJob job replace => job.key = jobKey "job1" ∧ job.durable = false ∧ replace = true
  | .scheduleJobs triggersAndJobs replace => replace = true ∧ ∀ p ∈ triggersAndJobs,
    p.1.key = jobKey "job1" ∧ p.1.durable = false ∧ p.2.map (·.key) = [triggerKey "job1"]
  | _ => True

/-- A body that prepares a scheduler as the servers here do. -/
abbrev Preparing {α : Type} (answers : α → Prop) (m : ServerM α) : Prop :=
  m.Bystander (fun c : ServerCall => c.onLifecycle = false ∧ c.isMade) answers

section

variable {toString : Throwable → String} {α : Type} {answers : α → Prop}

/-- A single call that is one of the servers' makings. -/
theorem perform_preparing {c : ServerCall} (hl : c.onLifecycle = false) (hm : c.isMade) :
    Preparing (fun _ => True) (Body.perform (F := serverCalls) c : ServerM _) :=
  Body.Bystander.perform ⟨hl, hm⟩ fun _ => trivial

/-- Throwing again makes no call. -/
theorem rethrow_preparing (ex : Throwable) : Preparing answers (rethrow toString ex) :=
  Body.Bystander.ite (fun _ => .throw _) fun _ => .throw _

/-- A value that is there is returned without a call. -/
theorem orThrow_preparing {r : Except Throwable α} (h : ∀ a, r = .ok a → answers a) :
    Preparing answers (orThrow r) := by
  cases r with
  | ok a => exact Body.Bystander.pure (h a rfl)
  | error ex => exact Body.Bystander.throw (F := serverCalls) ex

/-- A trigger that is built has what it was given. -/
theorem build_eq_ok {key : TriggerKey} {job : Option JobKey} {startTime : Option Int}
    {interval repeatCount : Int} {trigger : SimpleTrigger}
    (h : SimpleTrigger.build key job startTime interval repeatCount = .ok trigger) :
    trigger = ⟨key, job, startTime, interval, repeatCount⟩ := by
  unfold SimpleTrigger.build at h
  split at h
  · cases h
  · split at h
    · cases h
    · exact (Except.ok.inj h).symm

/-- A simple job only prepares. -/
theorem createSimpleJob_preparing {name : String} (hname : name ∈ jobNames)
    (startDelay interval repeatCount : Int) (jobClass : String)
    (data : Option (LinkedMap String (Option Value))) :
    Preparing (fun _ => True) (createSimpleJob toString name startDelay interval repeatCount
      jobClass data) := by
  refine (perform_preparing (c := .currentTimeMillis) rfl trivial).bind fun now _ => ?_
  refine Body.Bystander.bind (orThrow_preparing fun trigger => build_eq_ok) fun trigger ht => ?_
  subst ht
  refine Body.Bystander.tryCatch ((perform_preparing rfl ?_).discard trivial) rethrow_preparing
  exact ⟨name, hname, rfl, rfl, rfl, rfl⟩

/-- A job of `QuartzServer2` only prepares. -/
theorem createJob_preparing {name : String} (hname : name ∈ jobNames)
    (delay interval sleepTime : Int) :
    Preparing (fun _ => True) (QuartzServer2.createJob toString name delay interval sleepTime) :=
  Body.Bystander.bind (q := fun _ => True) (orThrow_preparing fun _ _ => trivial) fun _ _ =>
    createSimpleJob_preparing hname _ _ _ _ _

/-- Each server prepares its scheduler by such calls only, and has one answer. -/
theorem beforeSchedulerStart_preparing (server : ServerClass) :
    Preparing server.answer (server.beforeSchedulerStart toString) := by
  cases server with
  | quartzServer => exact Body.Bystander.pure rfl
  | quartzServer2 =>
    refine (createJob_preparing (by decide) _ _ _).bind fun _ _ =>
      (createJob_preparing (by decide) _ _ _).bind fun _ _ =>
        (createJob_preparing (by decide) _ _ _).bind fun _ _ => Body.Bystander.pure rfl
  | quartzServer3 =>
    exact ((perform_preparing (c := .addJob _ true) rfl ⟨rfl, rfl, rfl⟩).tryCatch
      rethrow_preparing).bind fun _ _ => Body.Bystander.pure rfl
  | quartzServer4 =>
    refine Body.Bystander.bind (q := fun _ => True) (Body.Bystander.tryCatch
      ((orThrow_preparing fun trigger => build_eq_ok).bind fun trigger ht => ?_)
      rethrow_preparing) fun _ _ => Body.Bystander.pure rfl
    subst ht
    refine perform_preparing rfl ⟨rfl, fun p hp => ?_⟩
    rw [List.mem_singleton.mp hp]
    exact ⟨rfl, rfl, rfl⟩
  | quartzServerClean =>
    refine Body.Bystander.bind (q := fun _ => True) (Body.Bystander.tryCatch
      ((perform_preparing (c := .getJobGroupNames) rfl trivial).bind fun names _ =>
        Body.Bystander.forM names fun name => ?_) rethrow_preparing)
      fun _ _ => Body.Bystander.pure rfl
    exact (perform_preparing (c := .getJobKeys name) rfl trivial).bind fun keys _ =>
      Body.Bystander.forM keys fun key =>
        (perform_preparing (c := .deleteJob key) rfl trivial).discard trivial

end

end MySchedule.Server
