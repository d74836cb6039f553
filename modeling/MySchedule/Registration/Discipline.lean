import MySchedule.Interaction.History
import MySchedule.Registration.Transaction
import MySchedule.Registration.Phases

/-!
# The protocol of a registration

Which call a registration may make after which answers, whatever these were: no
store, no other node and no failure is assumed away. The order is that of the
phases: data files, jobs, calendars, triggers. A job is written only where
existing ones may be overwritten or just after it was looked for in vain, and a
trigger that brings a job detail along is stored only when that job is there.
-/

namespace MySchedule.Registration

open Interaction Java

/-- The calls that only the trigger phase makes. -/
def SchedulerCall.onTriggers : SchedulerCall → Bool
  | .getTrigger _ | .scheduleJob _ | .rescheduleJob _ _ => true
  | _ => false

/-- The calls on job details. -/
def SchedulerCall.onJobs : SchedulerCall → Bool
  | .getJobDetail _ | .addJob _ _ => true
  | _ => false

/-- By the answers so far, the scheduler has a job of this key: it was found or added. -/
def Secured (k : JobKey) (s : List (Event quartz)) : Prop :=
  (∃ j, ⟨.getJobDetail (some k), .ok (some j)⟩ ∈ s) ∨
    ∃ j : JobDetail, j.key = k ∧ ⟨.addJob (some j) true, .ok ()⟩ ∈ s

/-- A job that was found or added counts from then on. -/
theorem Secured.mono {k : JobKey} {s t : List (Event quartz)} (h : Secured k s) (hst : s ⊆ t) :
    Secured k t := by
  rcases h with ⟨j, hj⟩ | ⟨j, hk, hj⟩
  · exact Or.inl ⟨j, hst hj⟩
  · exact Or.inr ⟨j, hk, hst hj⟩

section

variable (cfg : BeanConfig) (listed : List JobDetail)

/-- No trigger has been looked at. -/
def NoTriggers (s : List (Event quartz)) : Prop := ∀ e ∈ s, e.call.onTriggers = false

/-- All data files were handed to the processor. -/
def FilesDone (s : List (Event quartz)) : Prop :=
  ∀ location ∈ cfg.jobSchedulingDataLocations.getD [],
    ⟨.processFileAndScheduleJobs location, .ok ()⟩ ∈ s

/-- After the files, all jobs of the bean's list were found or added. -/
structure JobsDone (s : List (Event quartz)) : Prop where
  files : FilesDone cfg s
  jobs : ∀ j ∈ listed, Secured j.key s

/-- After the jobs, all calendars were added. -/
structure CalendarsDone (s : List (Event quartz)) : Prop where
  jobs : JobsDone cfg listed s
  calendars : ∀ entry ∈ cfg.calendarMap.entries,
    ⟨.addCalendar entry.1 entry.2 true true, .ok ()⟩ ∈ s

/-- The trigger was stored; or, where existing ones are kept, one of its key was there. -/
inductive Handled (t : Trigger) (s : List (Event quartz)) : Prop
  | scheduled (d : FireTime) (h : ⟨.scheduleJob t, .ok d⟩ ∈ s)
  | rescheduled (d : Option FireTime) (h : ⟨.rescheduleJob t.key t, .ok d⟩ ∈ s)
  | found (u : Trigger) (ho : cfg.overwriteExistingJobs = false)
      (h : ⟨.getTrigger t.key, .ok (some u)⟩ ∈ s)
  | appeared (ex : Throwable) (ho : cfg.overwriteExistingJobs = false)
      (hex : ex.isObjectAlreadyExists = true) (h : ⟨.scheduleJob t, .error ex⟩ ∈ s)

/-- After the calendars, all triggers had their turn. -/
structure TriggersDone (s : List (Event quartz)) : Prop where
  calendars : CalendarsDone cfg listed s
  triggers : ∀ t ∈ cfg.triggerList, Handled cfg t s

/-- After the event `e`, only jobs were dealt with. -/
def JobsSince (e : Event quartz) (s : List (Event quartz)) : Prop :=
  ∃ before jobs, s = before ++ e :: jobs ∧ ∀ e' ∈ jobs, e'.call.onJobs = true

end

/-! What was done stays done. -/

section

variable {cfg : BeanConfig} {listed : List JobDetail} {s t : List (Event quartz)}

/-- Files that were handed over stay so. -/
theorem FilesDone.mono (h : FilesDone cfg s) (hst : s ⊆ t) : FilesDone cfg t :=
  fun location hl => hst (h location hl)

/-- Jobs that are done stay done. -/
theorem JobsDone.mono (h : JobsDone cfg listed s) (hst : s ⊆ t) : JobsDone cfg listed t :=
  ⟨h.files.mono hst, fun j hj => (h.jobs j hj).mono hst⟩

/-- Calendars that are done stay done. -/
theorem CalendarsDone.mono (h : CalendarsDone cfg listed s) (hst : s ⊆ t) :
    CalendarsDone cfg listed t :=
  ⟨h.jobs.mono hst, fun entry he => hst (h.calendars entry he)⟩

/-- A trigger that is handled stays handled. -/
theorem Handled.mono {u : Trigger} (h : Handled cfg u s) (hst : s ⊆ t) : Handled cfg u t := by
  cases h with
  | scheduled d h => exact .scheduled d (hst h)
  | rescheduled d h => exact .rescheduled d (hst h)
  | found v ho h => exact .found v ho (hst h)
  | appeared ex ho hex h => exact .appeared ex ho hex (hst h)

/-- Triggers that are done stay done. -/
theorem TriggersDone.mono (h : TriggersDone cfg listed s) (hst : s ⊆ t) :
    TriggersDone cfg listed t :=
  ⟨h.calendars.mono hst, fun u hu => (h.triggers u hu).mono hst⟩

/-- One more call on a job. -/
theorem JobsSince.snoc {e e' : Event quartz} (h : JobsSince e s) (he : e'.call.onJobs = true) :
    JobsSince e (s ++ [e']) := by
  obtain ⟨before, jobs, rfl, hjobs⟩ := h
  refine ⟨before, jobs ++ [e'], by simp, fun e'' hm => ?_⟩
  rcases List.mem_append.mp hm with hm | hm
  · exact hjobs e'' hm
  · rwa [List.mem_singleton.mp hm]

/-- A call that is not on triggers keeps them unseen. -/
theorem NoTriggers.snoc (h : NoTriggers s) {e : Event quartz} (he : e.call.onTriggers = false) :
    NoTriggers (s ++ [e]) := by
  intro e' he'
  rcases List.mem_append.mp he' with he' | he'
  · exact h e' he'
  · rwa [List.mem_singleton.mp he']

/-- What has been shown of the turns made is shown after one more. -/
theorem forall_mem_snoc {ι : Type} {pre : List ι} {x : ι} {p : ι → Prop} (hpre : ∀ y ∈ pre, p y)
    (hx : p x) : ∀ y ∈ pre ++ [x], p y := by
  intro y hy
  rcases List.mem_append.mp hy with hy | hy
  · exact hpre y hy
  · rwa [List.mem_singleton.mp hy]

end

section

variable {cfg : BeanConfig} {listed : List JobDetail} {j : Option JobDetail}
  {K : Bean → List (Event quartz) → Prop}

/-- The bean has a list, and all jobs of it are there. -/
def ListSecured (b : Bean) (s : List (Event quartz)) : Prop :=
  ∃ jobDetails, b.jobDetails = some jobDetails ∧ ∀ j ∈ jobDetails, Secured j.key s

/-- The list's jobs count from then on. -/
theorem ListSecured.mono {b : Bean} {s t : List (Event quartz)} (h : ListSecured b s)
    (hst : s ⊆ t) : ListSecured b t := by
  obtain ⟨jobDetails, hb, hjobs⟩ := h
  exact ⟨jobDetails, hb, fun j hj => (hjobs j hj).mono hst⟩

/-- Everything known between two triggers. -/
structure Turned (cfg : BeanConfig) (listed : List JobDetail) (done : List Trigger) (b : Bean)
    (s : List (Event quartz)) : Prop where
  list : ListSecured b s
  calendars : CalendarsDone cfg listed s
  handled : ∀ t ∈ done, Handled cfg t s

/-- What is known between two triggers stays known. -/
theorem Turned.mono {done : List Trigger} {b : Bean} {s t : List (Event quartz)}
    (h : Turned cfg listed done b s) (hst : s ⊆ t) : Turned cfg listed done b t :=
  ⟨h.list.mono hst, h.calendars.mono hst, fun u hu => (h.handled u hu).mono hst⟩

/-- A handled trigger ends its turn. -/
theorem Turned.next {done : List Trigger} {t : Trigger} {b : Bean} {s : List (Event quartz)}
    (h : Turned cfg listed done b s) (ht : Handled cfg t s) :
    Turned cfg listed (done ++ [t]) b s :=
  ⟨h.list, h.calendars, forall_mem_snoc h.handled ht⟩

/-- Known inside the turn of a trigger, from the event `e` on. -/
def InTurn (cfg : BeanConfig) (listed : List JobDetail) (done : List Trigger) (e : Event quartz)
    (b : Bean) (s : List (Event quartz)) : Prop :=
  Turned cfg listed done b s ∧ JobsSince e s

end

end MySchedule.Registration
