import MySchedule.Server.Servers
import MySchedule.Cleanup.RemoveJobs
import MySchedule.Machines.Runs

/-!
# Server processes on one job store

The servers run one after the other on a job store that outlives them, and any of
their calls may fail. Each process takes one of its courses, and what they leave is
always in order.
-/

namespace MySchedule.Server

open Interaction Java Keyed Machines
open Registration (JobKey TriggerKey FireTime alreadyExists)
open Cleanup (JobStore StoredJob StoredTrigger)
open Utilities (createMap)

/-- Store a job, in place of one of its key. -/
def putJob (s : JobStore) (job : StoredJob) : JobStore where
  jobs := s.jobs.filter (·.key ≠ job.key) ++ [job]
  triggers := s.triggers
  jobs_nodup := nodup_map_replace s.jobs_nodup job
  triggers_nodup := s.triggers_nodup
  refers := by
    intro t ht
    obtain ⟨j, hj, hkey⟩ := List.mem_map.mp (s.refers t ht)
    rw [List.map_append, List.mem_append, List.mem_map]
    by_cases he : j.key = job.key
    · exact Or.inr (by simp [← hkey, he])
    · exact Or.inl ⟨j, List.mem_filter.mpr ⟨hj, by simpa using he⟩, hkey⟩

/-- Store a trigger of a stored job, in place of one of its key. -/
def putTrigger (s : JobStore) (t : StoredTrigger) (ht : t.jobKey ∈ s.jobs.map (·.key)) :
    JobStore where
  jobs := s.jobs
  triggers := s.triggers.filter (·.key ≠ t.key) ++ [t]
  jobs_nodup := s.jobs_nodup
  triggers_nodup := nodup_map_replace s.triggers_nodup t
  refers := by
    intro u hu
    rcases List.mem_append.mp hu with hu | hu
    · exact s.refers u (List.mem_filter.mp hu).1
    · rwa [List.mem_singleton.mp hu]

/-- The job that is put is there. -/
theorem mem_putJob (s : JobStore) (job : StoredJob) :
    job.key ∈ (putJob s job).jobs.map (·.key) := by simp [putJob]

/-- Store a job with a trigger for it. -/
def putScheduled (s : JobStore) (job : JobDetail) (trigger : SimpleTrigger) : JobStore :=
  putTrigger (putJob s ⟨job.key, job.durable⟩) ⟨trigger.key, job.key⟩ (mem_putJob s _)

/-- Whether a job of this key is stored. -/
def hasJob (s : JobStore) (key : JobKey) : Bool := s.jobs.any (·.key = key)

def hasTrigger (s : JobStore) (key : TriggerKey) : Bool := s.triggers.any (·.key = key)

/-- Store a job with all its triggers, replacing what is there. -/
def putAllScheduled (s : JobStore) (p : JobDetail × List SimpleTrigger) : JobStore :=
  match p.2 with
  | [] => putJob s ⟨p.1.key, p.1.durable⟩
  | triggers => triggers.foldl (fun s t => putScheduled s p.1 t) s

def notDurable : Throwable :=
  .plain .schedulerException (some "Jobs added with no trigger must be durable.")

def doesNotReference : Throwable :=
  .plain .schedulerException (some "Trigger does not reference given job!")

/-- The job store's answer to a call, at the instant `now`; the calls that run the scheduler do
not concern it. -/
def onStore (now : Int) : (c : ServerCall) → JobStore → Except Throwable (serverCalls.Answer c) ×
    JobStore
  | .currentTimeMillis, s => (.ok now, s)
  | .scheduleJob job trigger, s =>
    if trigger.jobKey.any (· ≠ job.key) then (.error doesNotReference, s)
    else if hasJob s job.key || hasTrigger s trigger.key then (.error alreadyExists, s)
    else (.ok (⟨⟩ : FireTime), putScheduled s job trigger)
  | .addJob job replace, s =>
    if !replace && !job.durable then (.error notDurable, s)
    else if !replace && hasJob s job.key then (.error alreadyExists, s)
    else (.ok (), putJob s ⟨job.key, job.durable⟩)
  | .scheduleJobs triggersAndJobs replace, s =>
    if !replace && triggersAndJobs.any (fun p => hasJob s p.1.key ||
        p.2.any fun t => hasTrigger s t.key) then (.error alreadyExists, s)
    else (.ok (), triggersAndJobs.foldl putAllScheduled s)
  | .getJobGroupNames, s => (Cleanup.getJobGroupNames s, s)
  | .getJobKeys group, s => (Cleanup.getJobKeys group s, s)
  | .deleteJob key, s =>
    match Cleanup.deleteJob key s with
    | .ok (found, s') => (.ok found, s')
    | .error ex => (.error ex, s)
  | .getScheduler _, s => (.ok (), s)
  | .addShutdownHook, s => (.ok (), s)
  | .start, s => (.ok (), s)
  | .shutdown _, s => (.ok (), s)

/-- What befalls a process: the clock at its calls, and which of them fail and how. -/
structure Weather where
  clock : Nat → Int
  fails : Nat → ServerCall → Option Throwable

/-- The surroundings of a process: the store, and the number of calls so far. A call that fails
leaves the store alone. -/
def Weather.serve (w : Weather) : Handler serverCalls (JobStore × Nat) := fun c x =>
  match w.fails x.2 c with
  | some ex => (.error ex, (x.1, x.2 + 1))
  | none => ((onStore (w.clock x.2) c x.1).1, ((onStore (w.clock x.2) c x.1).2, x.2 + 1))

/-- One process of a server: its main class, its configuration and what befalls it. -/
structure ServerProcess where
  server : ServerClass
  config : Option String
  weather : Weather

section

variable (toString : Throwable → String)

/-- A process on a store: how `main` ended, and the store it leaves. -/
def ServerProcess.onto (p : ServerProcess) (s : JobStore) :
    Except Throwable (Except Throwable Unit) × JobStore :=
  let out := Body.runWith p.weather.serve (process toString (p.server.run toString))
    (.new p.config) (s, 0)
  (out.1.1, out.2.1)

/-- The calls that a process on a store makes, with their answers. -/
def ServerProcess.calls (p : ServerProcess) (s : JobStore) : List (Event serverCalls) :=
  Body.calls p.weather.serve (process toString (p.server.run toString)) (.new p.config) (s, 0)

/-- A process on a store creates its scheduler and shuts it down, and never starts it. -/
def ServerProcess.NotStarted (p : ServerProcess) (s : JobStore) : Prop :=
  lifecycle (p.calls toString s) =
    [⟨.getScheduler p.config, .ok ()⟩, ⟨.shutdown true, .ok ()⟩]

/-- A process on a store starts its scheduler, and its hook shuts it down at the exit. -/
def ServerProcess.Served (p : ServerProcess) (s : JobStore) : Prop :=
  ∃ r, lifecycle (p.calls toString s) = [⟨.getScheduler p.config, .ok ()⟩,
    ⟨.addShutdownHook, .ok ()⟩, ⟨.start, .ok ()⟩, ⟨.shutdown true, r⟩]

/-- The processes, one after the other. -/
def processes : Machine JobStore ServerProcess (Except Throwable (Except Throwable Unit)) where
  step s p := p.onto toString s

end

/-- The store as the servers keep it: the three jobs at most, none of them durable, each trigger
of the name of its job, and only `job1` ever without one. -/
structure InOrder (s : JobStore) : Prop where
  jobs : ∀ job ∈ s.jobs, ∃ name ∈ jobNames, job = ⟨jobKey name, false⟩
  triggers : ∀ t ∈ s.triggers, t.key = ⟨t.jobKey.name, t.jobKey.group⟩
  fired : ∀ job ∈ s.jobs, job.key ≠ jobKey "job1" → s.fired job = true

/-- A job is fired by a trigger of its key. -/
theorem fired_iff {s : JobStore} {job : StoredJob} :
    s.fired job = true ↔ ∃ t ∈ s.triggers, t.jobKey = job.key := by
  simp [JobStore.fired]

/-- Putting the job of the server keeps the store in order. -/
theorem InOrder.putJob {s : JobStore} (h : InOrder s) {job : StoredJob}
    (hjob : job = ⟨jobKey "job1", false⟩) : InOrder (putJob s job) := by
  subst hjob
  refine ⟨fun j hj => ?_, h.triggers, fun j hj hne => ?_⟩
  · rcases List.mem_append.mp hj with hj | hj
    · exact h.jobs j (List.mem_filter.mp hj).1
    · exact ⟨"job1", by decide, List.mem_singleton.mp hj⟩
  · rcases List.mem_append.mp hj with hj | hj
    · exact h.fired j (List.mem_filter.mp hj).1 hne
    · rw [List.mem_singleton.mp hj] at hne
      exact absurd rfl hne

/-- A job of the three, stored with a trigger of its name. -/
theorem InOrder.putScheduled {s : JobStore} (h : InOrder s) {job : JobDetail}
    {trigger : SimpleTrigger} {name : String} (hname : name ∈ jobNames)
    (hjob : job.key = jobKey name) (hdurable : job.durable = false)
    (htrigger : trigger.key = triggerKey name) : InOrder (putScheduled s job trigger) := by
  have hnew : (⟨trigger.key, job.key⟩ : StoredTrigger) ∈
      (Server.putScheduled s job trigger).triggers :=
    List.mem_append_right _ (List.mem_singleton.mpr rfl)
  refine ⟨fun j hj => ?_, fun t ht => ?_, fun j hj hne => ?_⟩
  · rcases List.mem_append.mp hj with hj | hj
    · exact h.jobs j (List.mem_filter.mp hj).1
    · refine ⟨name, hname, ?_⟩
      rw [List.mem_singleton.mp hj, hjob, hdurable]
  · rcases List.mem_append.mp ht with ht | ht
    · exact h.triggers t (List.mem_filter.mp ht).1
    · rw [List.mem_singleton.mp ht, htrigger, hjob]
      rfl
  · rw [fired_iff]
    by_cases he : j.key = job.key
    · exact ⟨_, hnew, he.symm⟩
    · have hold : j ∈ s.jobs := by
        rcases List.mem_append.mp hj with hj | hj
        · exact (List.mem_filter.mp hj).1
        · rw [List.mem_singleton.mp hj] at he
          exact absurd rfl he
      obtain ⟨t, ht, hfires⟩ := fired_iff.mp (h.fired j hold hne)
      refine ⟨t, List.mem_append_left _ (List.mem_filter.mpr ⟨ht, ?_⟩), hfires⟩
      -- the trigger that is replaced has the name of the new job, not of this one
      have hkey : t.key ≠ trigger.key := by
        rw [h.triggers t ht, htrigger, hfires]
        intro hsame
        refine he (hjob ▸ ?_)
        obtain ⟨hn, hg⟩ := TriggerKey.mk.inj hsame
        exact (JobKey.mk.injEq ..).mpr ⟨hn, hg⟩
      simpa using hkey

/-- Removing a job keeps the store in order. -/
theorem InOrder.removeJob {s : JobStore} (h : InOrder s) (key : JobKey) :
    InOrder (s.removeJob key) := by
  refine ⟨fun j hj => h.jobs j (List.mem_filter.mp hj).1,
    fun t ht => h.triggers t (List.mem_filter.mp ht).1, fun j hj hne => ?_⟩
  obtain ⟨hj, hkey⟩ := List.mem_filter.mp hj
  obtain ⟨t, ht, hfires⟩ := fired_iff.mp (h.fired j hj hne)
  refine fired_iff.mpr ⟨t, List.mem_filter.mpr ⟨ht, ?_⟩, hfires⟩
  rwa [hfires]

/-- To store a list of jobs, each with its trigger, keeps the store in order. -/
theorem InOrder.foldl_putAllScheduled {triggersAndJobs : List (JobDetail × List SimpleTrigger)}
    (hall : ∀ p ∈ triggersAndJobs, p.1.key = jobKey "job1" ∧ p.1.durable = false ∧
      p.2.map (·.key) = [triggerKey "job1"]) {s : JobStore} (h : InOrder s) :
    InOrder (triggersAndJobs.foldl putAllScheduled s) := by
  induction triggersAndJobs generalizing s with
  | nil => exact h
  | cons p ps ih =>
    obtain ⟨hjob, hdurable, htriggers⟩ := hall p List.mem_cons_self
    obtain ⟨t, ht, hkey⟩ := List.map_eq_singleton_iff.mp htriggers
    refine ih (fun q hq => hall q (List.mem_cons_of_mem p hq)) ?_
    have hput : putAllScheduled s p = Server.putScheduled s p.1 t := by
      simp [putAllScheduled, ht]
    rw [hput]
    exact h.putScheduled (by decide) hjob hdurable hkey

/-- What the servers call keeps the store in order. -/
theorem onStore_inOrder {now : Int} {c : ServerCall} (hc : c.isMade) {s : JobStore}
    (h : InOrder s) : InOrder (onStore now c s).2 := by
  cases c with
  | scheduleJob job trigger =>
    obtain ⟨name, hname, hjob, htrigger, _, hdurable⟩ := hc
    simp only [onStore]
    split
    · exact h
    · split
      · exact h
      · exact h.putScheduled hname hjob hdurable htrigger
  | addJob job replace =>
    obtain ⟨hjob, hdurable, _⟩ := hc
    simp only [onStore]
    split
    · exact h
    · split
      · exact h
      · exact h.putJob (by rw [hjob, hdurable])
  | scheduleJobs triggersAndJobs replace =>
    obtain ⟨_, hall⟩ := hc
    simp only [onStore]
    split
    · exact h
    · exact h.foldl_putAllScheduled hall
  | deleteJob key =>
    simp only [onStore, Cleanup.deleteJob]
    by_cases hthere : (s.jobs.any fun x => x.key = key) = true
    · rw [if_pos hthere]
      exact h.removeJob key
    · rw [if_neg hthere]
      exact h
  | _ => exact h

/-- Of a process only the calls matter here. -/
abbrev Making {α : Type} (m : ServerM α) : Prop :=
  Obedient (fun _ (c : ServerCall) => c.isMade) (fun _ _ => True) m (fun _ _ _ => True)
    fun _ _ _ => True

section

variable {toString : Throwable → String}

/-- A single call that is one of the server's makings. -/
theorem perform_making {c : ServerCall} (hc : c.isMade) :
    Making (Body.perform (F := serverCalls) c : ServerM _) :=
  Obedient.perform (fun _ _ _ => hc) (fun _ _ _ _ => trivial) fun _ _ _ _ => trivial

/-- Throwing again makes no call. -/
theorem rethrow_making {α : Type} (ex : Throwable) :
    Making (rethrow toString ex : ServerM α) :=
  Obedient.ite (fun _ => Obedient.throw fun _ _ _ => trivial)
    fun _ => Obedient.throw fun _ _ _ => trivial

/-- A process makes the calls of its server, besides those that run the scheduler. -/
theorem process_making (server : ServerClass) :
    Making (process toString (server.run toString)) := by
  have hset : ∀ b : QuartzServer, Making (set b : ServerM PUnit) := fun b =>
    Obedient.set fun _ _ _ => trivial
  have hpure : ∀ {α : Type} (a : α), Making (pure a : ServerM α) := fun a =>
    Obedient.pure fun _ _ _ => trivial
  have hbefore : Making (server.beforeSchedulerStart toString) :=
    (Obedient.of_bystander (beforeSchedulerStart_preparing server) (K := fun _ _ => True)
      (fun _ _ _ _ hc => hc.2) fun _ _ _ _ _ => trivial).post fun _ _ _ _ => trivial
  have hinit : Making (init toString) := Obedient.get_bind fun b => Obedient.pre
    (Obedient.tryCatch (Obedient.bind (perform_making (c := .getScheduler b.config) trivial)
      fun _ => hset _) fun ex => rethrow_making ex) fun _ _ _ => trivial
  have hregister : Making registerShutdown := Obedient.bind
    (perform_making (c := .addShutdownHook) trivial) fun _ =>
    Obedient.get_bind fun b => (hset _).pre fun _ _ _ => trivial
  have hinitIfNull : Making (initIfNull toString) := Obedient.get_bind fun b =>
    Obedient.pre (Obedient.ite (fun _ => hinit) fun _ => hpure _) fun _ _ _ => trivial
  have hrun : Making (server.run toString) := hinitIfNull.bind fun _ =>
    Obedient.tryCatch (E := fun _ _ _ => True) (hbefore.bind fun cont => Obedient.ite
      (fun _ => hregister.bind fun _ => Obedient.bind (perform_making (c := .start) trivial)
        fun _ => hpure ())
      fun _ => perform_making (c := .shutdown true) trivial) fun ex => rethrow_making ex
  refine Obedient.bind (Q := fun _ _ _ => True) (Obedient.tryCatch (E := fun _ _ _ => True)
    (hrun.bind fun _ => hpure _) fun ex => hpure _) fun r => Obedient.bind ?_ fun _ => hpure _
  refine Obedient.get_bind fun b => Obedient.pre (Obedient.forM (I := fun _ _ _ => True) _
    fun _ _ _ _ => Obedient.tryCatch (E := fun _ _ _ => True) ?_ fun ex => hpure _)
    fun _ _ _ => trivial
  exact Obedient.tryCatch (E := fun _ _ _ => True) (perform_making (c := .shutdown true) trivial)
    fun ex => rethrow_making ex

/-- A process keeps the store in order, whatever befalls it. -/
theorem ServerProcess.onto_inOrder (p : ServerProcess) {s : JobStore} (h : InOrder s) :
    InOrder (p.onto toString s).2 := by
  refine (process_making p.server).keeps (I := fun x : JobStore × Nat => InOrder x.1)
    (fun c x hc hx => ?_) trivial h
  unfold Weather.serve
  split
  · exact hx
  · exact onStore_inOrder hc hx

/-- On any store and whatever befalls it, a process takes one of the courses. -/
theorem ServerProcess.onto_course (p : ServerProcess) (s : JobStore) :
    ∃ r, (p.onto toString s).1 = .ok r ∧
      Course p.config p.server.answer r (lifecycle (p.calls toString s)) := by
  have hbefore : Prepares p.server.answer (p.server.beforeSchedulerStart toString) :=
    (beforeSchedulerStart_preparing p.server).mono fun _ hc => hc.1
  have hafter : Prepares (fun _ => True) p.server.afterSchedulerStart :=
    Body.Bystander.pure trivial
  have hserving : Serving p.config (fun b s => b = .new p.config ∧ s = [])
      (process toString (p.server.run toString)) (fun r _ s =>
        Course p.config p.server.answer r (lifecycle s) ∧
          ∀ ex, r = .error ex → ex.isSchedulerException = false) fun _ _ _ => False :=
    process_serving (X := fun r => ∀ ex, r = .error ex → ex.isSchedulerException = false)
      (run_serving hbefore hafter)
  obtain ⟨-, hout⟩ := hserving.run_recorded p.weather.serve (b := .new p.config) ⟨rfl, rfl⟩ (s, 0)
  change Contract.Outcome _ _ (Body.runWith p.weather.serve
    (process toString (p.server.run toString)) (.new p.config) (s, 0)).1
      (p.calls toString s) at hout
  rcases hr : (Body.runWith p.weather.serve (process toString (p.server.run toString))
    (.new p.config) (s, 0)).1 with ⟨ex | r, b⟩
  · rw [hr] at hout
    exact hout.elim
  · rw [hr] at hout
    exact ⟨r, congrArg Prod.fst hr, hout.1⟩

/-- The course of a process by how its `main` ended. -/
theorem ServerProcess.course_of_onto {p : ServerProcess} {s s' : JobStore}
    {ended : Except Throwable Unit} (h : p.onto toString s = (.ok ended, s')) :
    Course p.config p.server.answer ended (lifecycle (p.calls toString s)) := by
  obtain ⟨r, hr, hcourse⟩ : ∃ r, (p.onto toString s).1 = .ok r ∧
      Course p.config p.server.answer r (lifecycle (p.calls toString s)) := p.onto_course s
  rw [h] at hr
  cases hr
  exact hcourse

end

/-- Whatever servers run on a job store that is in order, in whatever number and sequence, and
whichever of their calls fail, the store is in order after each of them: it has the three jobs
at most, each trigger is of the name of its job, and no job but `job1` is without one. -/
theorem processes_inOrder (toString : Throwable → String) (s : JobStore) (h : InOrder s)
    (ps : List ServerProcess) :
    InOrder ((processes toString).after s ps) ∧
      ∀ t ∈ ((processes toString).after s ps).triggers, ∃ name ∈ jobNames,
        t = ⟨triggerKey name, jobKey name⟩ := by
  have hafter : InOrder ((processes toString).after s ps) := by
    induction ps generalizing s with
    | nil => exact h
    | cons p ps ih => exact ih _ (p.onto_inOrder h)
  refine ⟨hafter, fun t ht => ?_⟩
  obtain ⟨job, hjob, hkey⟩ := List.mem_map.mp (JobStore.refers _ t ht)
  obtain ⟨name, hname, hof⟩ := hafter.jobs job hjob
  refine ⟨name, hname, ?_⟩
  have hjobKey : t.jobKey = jobKey name := by rw [← hkey, hof]
  have htKey := hafter.triggers t ht
  rw [hjobKey] at htKey
  cases t
  simp only at hjobKey htKey
  rw [hjobKey, htKey]
  rfl

/-- A job store with nothing in it. -/
def emptyJobStore : JobStore := ⟨[], [], List.nodup_nil, List.nodup_nil, by simp⟩

/-- Two servers from an empty store, the first of them cut off at its third job. -/
theorem processes_from_empty :
    InOrder ((processes fun _ => "").after emptyJobStore
      [⟨.quartzServer2, none, ⟨fun _ => 0, fun n _ => if n = 6 then some .nullPointer else none⟩⟩,
        ⟨.quartzServer4, none, ⟨fun _ => 0, fun _ _ => none⟩⟩]) :=
  (processes_inOrder (fun _ => "") emptyJobStore
    ⟨by simp [emptyJobStore], by simp [emptyJobStore], by simp [emptyJobStore]⟩ _).1

end MySchedule.Server
