import MySchedule.Registration.Expected
import MySchedule.Interaction.Contract
import MySchedule.Interaction.LastWriter

/-!
# The store while registrations are under way

What is true of the store between any two calls, whoever makes them: `Between`
bounds it by the store `s₀` at the start and the expected one. `Tracked` adds the
last writer of each key, which lets a node speak of its own writes while other
nodes write too. The contract of a node says that much and nothing about what
the others have done so far.
-/

namespace MySchedule.Registration

open Interaction Java Keyed

variable {ι : Type}

/-- The store with the last writer of each job and trigger. -/
@[ext]
structure Tracked (ι : Type) where
  jobs : OwnedMap JobKey JobDetail ι
  triggers : OwnedMap TriggerKey Trigger ι
  calendars : String → Option Calendar

namespace Tracked

def store (s : Tracked ι) : Store := ⟨s.jobs.value, s.triggers.value, s.calendars⟩

/-- Nothing was written since `base`. -/
def start (base : Store) : Tracked ι :=
  ⟨.untouched base.jobs, .untouched base.triggers, base.calendars⟩

def putJob (s : Tracked ι) (i : ι) (j : JobDetail) : Tracked ι :=
  { s with jobs := s.jobs.write i j.key j }

def putTrigger (s : Tracked ι) (i : ι) (k : TriggerKey) (t : Trigger) : Tracked ι :=
  { s with triggers := s.triggers.write i k t }

def putCalendar (s : Tracked ι) (n : String) (c : Calendar) : Tracked ι :=
  { s with calendars := Function.update s.calendars n (some c) }

/-- The state after a call of node `i` that was answered by `r`. -/
def after (s : Tracked ι) (i : ι) :
    (c : SchedulerCall) → Except Throwable (quartz.Answer c) → Tracked ι
  | .addJob (some j) _, .ok _ => s.putJob i j
  | .addCalendar n c _ _, .ok _ => s.putCalendar n c
  | .scheduleJob t, .ok _ => s.putTrigger i t.key t
  | .rescheduleJob k t, .ok (some _) => s.putTrigger i k t
  | _, _ => s

end Tracked

/-- The calls on the scheduler itself, as opposed to those on the transaction manager and
on the data processor. -/
def SchedulerCall.onScheduler : SchedulerCall → Bool
  | .getTransaction | .commit | .rollback | .newXMLSchedulingDataProcessor
  | .processFileAndScheduleJobs _ => false
  | _ => true

/-- An exception that the registration handles itself, so that it does not abort it. -/
def SchedulerCall.handles : SchedulerCall → Throwable → Bool
  | .scheduleJob _, ex => ex.isObjectAlreadyExists
  | _, _ => false

/-- The tracked state follows the scheduler call by call. -/
theorem Tracked.store_after (processFile : DataProcessor) (i : ι) {c : SchedulerCall}
    (hc : c.onScheduler = true) (s : Tracked ι) (x : SchedulerState) (hx : x.store = s.store) :
    (exec processFile c x).1 = (exec processFile c ⟨s.store, none⟩).1 ∧
      (exec processFile c x).2.store =
        (s.after i c (exec processFile c ⟨s.store, none⟩).1).store := by
  cases c with
  | getTransaction => cases hc
  | commit => cases hc
  | rollback => cases hc
  | newXMLSchedulingDataProcessor => cases hc
  | processFileAndScheduleJobs location => cases hc
  | getJobDetail key => cases key <;> simp only [exec, hx] <;> exact ⟨trivial, rfl⟩
  | getTrigger key => simp only [exec, hx]; exact ⟨trivial, rfl⟩
  | addJob j replace =>
    cases j with
    | none => exact ⟨rfl, hx⟩
    | some j =>
      simp only [exec, hx]
      split
      · exact ⟨rfl, hx⟩
      · exact ⟨rfl, rfl⟩
  | addCalendar n c replace update =>
    simp only [exec, hx]
    split
    · exact ⟨rfl, hx⟩
    · exact ⟨rfl, rfl⟩
  | scheduleJob t =>
    simp only [exec, hx]
    split
    · exact ⟨rfl, hx⟩
    · split
      · exact ⟨rfl, hx⟩
      · exact ⟨rfl, rfl⟩
  | rescheduleJob k t =>
    simp only [exec, hx]
    split
    · exact ⟨rfl, rfl⟩
    · exact ⟨rfl, hx⟩

section Between

variable (cfg : BeanConfig) (s₀ s : Store)

/-- Every job detail that a registration may write. -/
def configuredJobs : List JobDetail := cfg.jobList ++ broughtJobs cfg s₀ cfg.triggerList

/-- Existing data is overwritten: only configured keys have changed, and none is gone. -/
structure Overwritten : Prop where
  jobs : ∀ k, k ∉ (configuredJobs cfg s₀).map JobDetail.key → s.jobs k = s₀.jobs k
  triggers : ∀ k, k ∉ cfg.triggerList.map Trigger.key → s.triggers k = s₀.triggers k
  jobs_kept : ∀ k, s₀.jobs k ≠ none → s.jobs k ≠ none
  triggers_kept : ∀ k, s₀.triggers k ≠ none → s.triggers k ≠ none

/-- Existing data is kept: what is new is as expected, and a new trigger came after the job
detail it brings along. -/
structure Extended : Prop where
  jobs : ∀ k, s.jobs k = s₀.jobs k ∨ s₀.jobs k = none ∧ s.jobs k = expectedJob cfg s₀ k
  triggers : ∀ k, s.triggers k = s₀.triggers k ∨
    s₀.triggers k = none ∧ s.triggers k = expectedTrigger cfg s₀ k
  brought : ∀ k t j, s₀.triggers k = none → s.triggers k ≠ none →
    first Trigger.key k cfg.triggerList = some t → t.carried = some j → s.jobs j.key ≠ none

/-- The store is on its way from `s₀` to the expected one. -/
structure Between : Prop where
  overwritten : cfg.overwriteExistingJobs = true → Overwritten cfg s₀ s
  extended : cfg.overwriteExistingJobs = false → Extended cfg s₀ s
  calendars : ∀ n, s.calendars n = s₀.calendars n ∨ s.calendars n = expectedCalendar cfg s₀ n

/-- A job detail that a registration may write now. -/
structure MayPutJob (j : JobDetail) : Prop where
  configured : cfg.overwriteExistingJobs = true → j.key ∈ (configuredJobs cfg s₀).map JobDetail.key
  expected : cfg.overwriteExistingJobs = false →
    s₀.jobs j.key = none ∧ expectedJob cfg s₀ j.key = some j

/-- A trigger that a registration may write now. -/
structure MayPutTrigger (k : TriggerKey) (t : Trigger) : Prop where
  configured : cfg.overwriteExistingJobs = true → k ∈ cfg.triggerList.map Trigger.key
  expected : cfg.overwriteExistingJobs = false →
    s₀.triggers k = none ∧ expectedTrigger cfg s₀ k = some t ∧
      ∀ j, t.carried = some j → s.jobs j.key ≠ none

variable {cfg s₀ s}

/-- A registration begins in between. -/
theorem between_refl : Between cfg s₀ s₀ where
  overwritten _ := ⟨fun _ _ => rfl, fun _ _ => rfl, fun _ h => h, fun _ h => h⟩
  extended _ := ⟨fun _ => Or.inl rfl, fun _ => Or.inl rfl, fun _ _ _ h h' => absurd h h'⟩
  calendars _ := Or.inl rfl

/-- No job is lost on the way. -/
theorem Between.job_kept (h : Between cfg s₀ s) {k : JobKey} (hk : s₀.jobs k ≠ none) :
    s.jobs k ≠ none := by
  cases ho : cfg.overwriteExistingJobs with
  | true => exact (h.overwritten ho).jobs_kept k hk
  | false =>
    rcases (h.extended ho).jobs k with he | ⟨hn, _⟩
    · rwa [he]
    · exact absurd hn hk

/-- No trigger is lost on the way. -/
theorem Between.trigger_kept (h : Between cfg s₀ s) {k : TriggerKey}
    (hk : s₀.triggers k ≠ none) : s.triggers k ≠ none := by
  cases ho : cfg.overwriteExistingJobs with
  | true => exact (h.overwritten ho).triggers_kept k hk
  | false =>
    rcases (h.extended ho).triggers k with he | ⟨hn, _⟩
    · rwa [he]
    · exact absurd hn hk

/-- Where existing jobs are kept, a missing trigger is expected from the configuration. -/
theorem expectedTrigger_of_keeping (ho : cfg.overwriteExistingJobs = false) {k : TriggerKey}
    (hk : s₀.triggers k = none) :
    expectedTrigger cfg s₀ k = first Trigger.key k cfg.triggerList := by
  simp [expectedTrigger, ho, hk]

/-- A job that may be written keeps the store in between. -/
theorem Between.putJob (h : Between cfg s₀ s) {j : JobDetail} (hj : MayPutJob cfg s₀ j) :
    Between cfg s₀ (s.putJob j) where
  overwritten ho := by
    obtain ⟨hjobs, htriggers, hjk, htk⟩ := h.overwritten ho
    refine ⟨fun k hk => ?_, htriggers, fun k hk => ?_, htk⟩
    · have hne : k ≠ j.key := fun he => hk (he ▸ hj.configured ho)
      simpa only [Store.putJob, Function.update_of_ne hne] using hjobs k hk
    · by_cases he : k = j.key
      · simp [Store.putJob, he]
      · simpa only [Store.putJob, Function.update_of_ne he] using hjk k hk
  extended ho := by
    obtain ⟨hjobs, htriggers, hbrought⟩ := h.extended ho
    obtain ⟨hn, hx⟩ := hj.expected ho
    refine ⟨fun k => ?_, htriggers, fun k t j' hk hp hf hc => ?_⟩
    · by_cases he : k = j.key
      · subst he
        exact Or.inr ⟨hn, by simp [Store.putJob, hx]⟩
      · simpa only [Store.putJob, Function.update_of_ne he] using hjobs k
    · by_cases he : j'.key = j.key
      · simp [Store.putJob, he]
      · simpa only [Store.putJob, Function.update_of_ne he] using hbrought k t j' hk hp hf hc
  calendars := h.calendars

/-- A trigger that may be written keeps the store in between. -/
theorem Between.putTrigger (h : Between cfg s₀ s) {k : TriggerKey} {t : Trigger}
    (ht : MayPutTrigger cfg s₀ s k t) : Between cfg s₀ (s.putTrigger k t) where
  overwritten ho := by
    obtain ⟨hjobs, htriggers, hjk, htk⟩ := h.overwritten ho
    refine ⟨hjobs, fun k' hk => ?_, hjk, fun k' hk => ?_⟩
    · have hne : k' ≠ k := fun he => hk (he ▸ ht.configured ho)
      simpa only [Store.putTrigger, Function.update_of_ne hne] using htriggers k' hk
    · by_cases he : k' = k
      · simp [Store.putTrigger, he]
      · simpa only [Store.putTrigger, Function.update_of_ne he] using htk k' hk
  extended ho := by
    obtain ⟨hjobs, htriggers, hbrought⟩ := h.extended ho
    obtain ⟨hn, hx, hc⟩ := ht.expected ho
    refine ⟨hjobs, fun k' => ?_, fun k' t' j hk hp hf hc' => ?_⟩
    · by_cases he : k' = k
      · subst he
        exact Or.inr ⟨hn, by simp [Store.putTrigger, hx]⟩
      · simpa only [Store.putTrigger, Function.update_of_ne he] using htriggers k'
    · by_cases he : k' = k
      · subst he
        rw [expectedTrigger_of_keeping ho hn, hf] at hx
        exact hc j (Option.some.inj hx ▸ hc')
      · refine hbrought k' t' j hk ?_ hf hc'
        simpa only [Store.putTrigger, Function.update_of_ne he] using hp
  calendars := h.calendars

/-- An expected calendar keeps the store in between. -/
theorem Between.putCalendar (h : Between cfg s₀ s) {n : String} {c : Calendar}
    (hc : expectedCalendar cfg s₀ n = some c) : Between cfg s₀ (s.putCalendar n c) where
  overwritten ho := ⟨(h.overwritten ho).jobs, (h.overwritten ho).triggers,
    (h.overwritten ho).jobs_kept, (h.overwritten ho).triggers_kept⟩
  extended ho := ⟨(h.extended ho).jobs, (h.extended ho).triggers, (h.extended ho).brought⟩
  calendars n' := by
    by_cases he : n' = n
    · subst he
      exact Or.inr (by simp [Store.putCalendar, hc])
    · simpa only [Store.putCalendar, Function.update_of_ne he] using h.calendars n'

end Between

end MySchedule.Registration
