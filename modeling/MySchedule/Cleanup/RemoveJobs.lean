import MySchedule.Cleanup.JobStore
import MySchedule.Keyed.Sweep

/-!
# Emptying a scheduler

`MySchedulerServiceImpl.removeJobs` unschedules every trigger and then deletes the jobs
that are left; `QuartzServerClean.beforeSchedulerStart` deletes the jobs alone. Each
loop is a sweep by snapshots, and both leave an empty store.
-/

namespace MySchedule.Cleanup

open Java Registration Keyed

/-- What `removeJobs` leaves: the store, its calls with their answers, and its counters. -/
structure Removal where
  store : JobStore
  unscheduled : List (TriggerKey × Bool)
  triggerCount : Nat
  deleted : List (JobKey × Bool)
  jobCount : Nat

/-- The first loop of `removeJobs`. -/
def unscheduleAll : JobStore → Except Throwable (Swept JobStore TriggerKey) :=
  sweep getTriggerGroupNames
    (fun group s => (getTriggerNames group s).map (·.map fun name => ⟨name, group⟩))
    (fun key => unscheduleJob key.name key.group)

/-- The second loop of `removeJobs`. -/
def deleteOrphaned : JobStore → Except Throwable (Swept JobStore JobKey) :=
  sweep getJobGroupNames
    (fun group s => (getJobNames group s).map (·.map fun name => ⟨name, group⟩)) deleteJob

def removeJobs (s : JobStore) : Except Throwable Removal := do
  let triggers ← unscheduleAll s
  let jobs ← deleteOrphaned triggers.store
  return ⟨jobs.store, triggers.calls, triggers.count, jobs.calls, jobs.count⟩

/-- The loop of `QuartzServerClean.beforeSchedulerStart`. -/
def deleteAll : JobStore → Except Throwable (Swept JobStore JobKey) :=
  sweep getJobGroupNames getJobKeys deleteJob

/-- `QuartzServerClean.beforeSchedulerStart`: false, so that the scheduler is not started.
`toString` is that of the wrapped exception. -/
def beforeSchedulerStart (toString : Throwable → String) (s : JobStore) :
    Except Throwable (Bool × Swept JobStore JobKey) :=
  match deleteAll s with
  | .ok swept => .ok (false, swept)
  | .error e =>
    if e.isSchedulerException then
      .error (.caused (.runtimeException "RuntimeException") (some (toString e)) e)
    else .error e

theorem sweepable_triggers : Sweepable (fun s : JobStore => s.triggers.map (·.key)) (·.group)
    getTriggerGroupNames
    (fun group s => (getTriggerNames group s).map (·.map fun name => ⟨name, group⟩))
    (fun key => unscheduleJob key.name key.group) where
  nodup s := s.triggers_nodup
  groups_ok s := by
    refine ⟨_, rfl, fun key hkey => ?_⟩
    obtain ⟨t, ht, rfl⟩ := List.mem_map.mp hkey
    exact List.mem_dedup.mpr (List.mem_map.mpr ⟨t, ht, rfl⟩)
  keysOf_ok group s := by
    simp only [getTriggerNames, Except.map, List.filter_map, List.map_map, Except.ok.injEq]
    apply List.map_congr_left
    intro t ht
    have hgroup : t.key.group = group := by simpa using (List.mem_filter.mp ht).2
    simp [← hgroup]
  delete_ok key s hkey := by
    obtain ⟨t, _, rfl, hcall⟩ := unscheduleJob_present hkey
    refine ⟨s.removeTrigger t, hcall, ?_⟩
    rw [List.filter_map]
    rfl

/-- Both queries for the keys of a group give them in the same way. -/
theorem sweepable_jobs {keysOf : String → JobStore → Except Throwable (List JobKey)}
    (hkeysOf : ∀ group s, keysOf group s = .ok ((s.jobs.map (·.key)).filter (·.group = group))) :
    Sweepable (fun s : JobStore => s.jobs.map (·.key)) (·.group) getJobGroupNames keysOf
      deleteJob where
  nodup s := s.jobs_nodup
  groups_ok s := by
    refine ⟨_, rfl, fun key hkey => ?_⟩
    obtain ⟨job, hjob, rfl⟩ := List.mem_map.mp hkey
    exact List.mem_dedup.mpr (List.mem_map.mpr ⟨job, hjob, rfl⟩)
  keysOf_ok := hkeysOf
  delete_ok key s hkey := by
    refine ⟨s.removeJob key, deleteJob_present hkey, ?_⟩
    rw [JobStore.removeJob, List.filter_map]
    rfl

theorem getJobKeys_eq (group : String) (s : JobStore) :
    getJobKeys group s = .ok ((s.jobs.map (·.key)).filter (·.group = group)) := by
  rw [getJobKeys, List.filter_map]
  rfl

theorem getJobNames_eq (group : String) (s : JobStore) :
    (getJobNames group s).map (·.map fun name => (⟨name, group⟩ : JobKey)) =
      .ok ((s.jobs.map (·.key)).filter (·.group = group)) := by
  simp only [getJobNames, Except.map, List.filter_map, List.map_map, Except.ok.injEq]
  apply List.map_congr_left
  intro job hjob
  have hgroup : job.key.group = group := by simpa using (List.mem_filter.mp hjob).2
  simp [← hgroup]

/-- The jobs that survive the unscheduling as far as it has got: the durable ones, those
that no trigger fired at the start, and those that a remaining trigger fires. -/
def Orphaned (s s' : JobStore) : Prop :=
  s'.jobs = s.jobs.filter fun job => job.durable || !s.fired job || s'.fired job

theorem orphaned_refl (s : JobStore) : Orphaned s s := by
  rw [Orphaned, eq_comm, List.filter_eq_self]
  intro job _
  cases s.fired job <;> simp

/-- A job that another trigger may fire is not affected by one that goes. -/
theorem fired_removeTrigger {s : JobStore} {t : StoredTrigger} {job : StoredJob}
    (ht : t ∈ s.triggers) (hjob : job.key ≠ t.jobKey) :
    (s.removeTrigger t).fired job = s.fired job := by
  rw [Bool.eq_iff_iff]
  constructor
  · intro h
    obtain ⟨t', ht', hfires⟩ := List.any_eq_true.mp h
    exact List.any_eq_true.mpr ⟨t', (List.mem_filter.mp ht').1, hfires⟩
  · intro h
    obtain ⟨t', ht', hfires⟩ := List.any_eq_true.mp h
    have hkey : t'.key ≠ t.key := by
      intro he
      have hsame : t' = t := List.inj_on_of_nodup_map s.triggers_nodup ht' ht he
      subst hsame
      exact hjob (of_decide_eq_true hfires).symm
    have hrest : t' ∈ (s.removeTrigger t).triggers :=
      List.mem_filter.mpr ⟨ht', by simpa using hkey⟩
    exact List.any_eq_true.mpr ⟨t', hrest, hfires⟩

/-- One more unscheduled trigger: its job goes if nothing else holds it. -/
theorem Orphaned.removeTrigger {s s' : JobStore} {t : StoredTrigger} (ht : t ∈ s'.triggers)
    (hs : t ∈ s.triggers) (h : Orphaned s s') : Orphaned s (s'.removeTrigger t) := by
  have hjobs : (s'.removeTrigger t).jobs = s'.jobs.filter fun job =>
      job.durable || decide (job.key ≠ t.jobKey) || (s'.removeTrigger t).fired job := rfl
  rw [Orphaned, hjobs, h, List.filter_filter]
  apply List.filter_congr
  intro job _
  by_cases hjob : job.key = t.jobKey
  · have hfired : s.fired job = true := List.any_eq_true.mpr ⟨t, hs, by simp [hjob]⟩
    have hfired' : s'.fired job = true := List.any_eq_true.mpr ⟨t, ht, by simp [hjob]⟩
    simp [hjob, hfired, hfired']
  · simp [hjob, fired_removeTrigger ht hjob]

/-- The first loop empties the triggers and leaves the jobs that are not orphans. -/
theorem unscheduleAll_ok (s : JobStore) : ∃ swept, unscheduleAll s = .ok swept ∧
    swept.store.triggers = [] ∧
    swept.store.jobs = s.jobs.filter (fun job => job.durable || !s.fired job) ∧
    swept.calls.Perm (s.triggers.map fun t => (t.key, true)) ∧
    swept.count = s.triggers.length := by
  obtain ⟨swept, hswept, ⟨horphaned, _⟩, hcalls, hcount, hkeys⟩ :=
    sweepable_triggers.sweep_ok
      (P := fun s' => Orphaned s s' ∧ ∀ t ∈ s'.triggers, t ∈ s.triggers)
      (fun key s' s'' hkey hcall h => by
        obtain ⟨t, ht, _, hcall'⟩ := unscheduleJob_present hkey
        have hs'' : s'' = s'.removeTrigger t := by
          rw [hcall'] at hcall
          simpa using hcall.symm
        subst hs''
        refine ⟨h.1.removeTrigger ht (h.2 t ht), fun t' ht' => ?_⟩
        exact h.2 t' (List.mem_filter.mp ht').1)
      s ⟨orphaned_refl s, fun _ ht => ht⟩
  have htriggers : swept.store.triggers = [] := List.map_eq_nil_iff.mp hkeys
  refine ⟨swept, hswept, htriggers, ?_, ?_, ?_⟩
  · rw [horphaned]
    apply List.filter_congr
    intro job _
    simp [JobStore.fired, htriggers]
  · simpa [Function.comp_def] using hcalls
  · simpa using hcount

/-- The jobs of a store are deleted one by one, by either query for their keys. -/
theorem deleteJobs_ok {keysOf : String → JobStore → Except Throwable (List JobKey)}
    (hkeysOf : ∀ group s, keysOf group s = .ok ((s.jobs.map (·.key)).filter (·.group = group)))
    (s : JobStore) : ∃ swept, sweep getJobGroupNames keysOf deleteJob s = .ok swept ∧
    swept.store.jobs = [] ∧ swept.store.triggers = [] ∧
    swept.calls.Perm (s.jobs.map fun job => (job.key, true)) ∧
    swept.count = s.jobs.length := by
  obtain ⟨swept, hswept, _, hcalls, hcount, hkeys⟩ :=
    (sweepable_jobs hkeysOf).sweep_ok (P := fun _ => True) (fun _ _ _ _ _ _ => trivial) s trivial
  have hjobs : swept.store.jobs = [] := List.map_eq_nil_iff.mp hkeys
  have htriggers : swept.store.triggers = [] := by
    rw [List.eq_nil_iff_forall_not_mem]
    intro t ht
    have hjob := swept.store.refers t ht
    simp [hjobs] at hjob
  refine ⟨swept, hswept, hjobs, htriggers, ?_, ?_⟩
  · simpa [Function.comp_def] using hcalls
  · simpa using hcount

/-- Either clean-up ends with an empty store, every call of it finds its key, and no key
is touched twice. -/
theorem cleanUp_empties (toString : Throwable → String) (s : JobStore) :
    (∃ r, removeJobs s = .ok r ∧ r.store.triggers = [] ∧ r.store.jobs = [] ∧
      (∀ call ∈ r.unscheduled, call.2 = true) ∧ (∀ call ∈ r.deleted, call.2 = true) ∧
      (r.unscheduled.map (·.1)).Perm (s.triggers.map (·.key)) ∧
      (r.deleted.map (·.1)).Perm
        ((s.jobs.filter fun job => job.durable || !s.fired job).map (·.key)) ∧
      r.triggerCount = s.triggers.length ∧
      r.jobCount = (s.jobs.filter fun job => job.durable || !s.fired job).length) ∧
    (∃ swept, beforeSchedulerStart toString s = .ok (false, swept) ∧
      swept.store.jobs = [] ∧ swept.store.triggers = [] ∧
      (∀ call ∈ swept.calls, call.2 = true) ∧
      (swept.calls.map (·.1)).Perm (s.jobs.map (·.key))) := by
  constructor
  · obtain ⟨triggers, hunschedule, _, hleft, hcalls, hcount⟩ := unscheduleAll_ok s
    obtain ⟨jobs, hdelete, hjobs, htriggers, hcalls', hcount'⟩ :=
      deleteJobs_ok getJobNames_eq triggers.store
    rw [hleft] at hcalls' hcount'
    refine ⟨_, by simp [removeJobs, deleteOrphaned, hunschedule, hdelete, bind, Except.bind, pure,
      Except.pure]; rfl, htriggers, hjobs, ?_, ?_, ?_, ?_, hcount, hcount'⟩
    · intro call hcall
      obtain ⟨t, _, rfl⟩ := List.mem_map.mp (hcalls.subset hcall)
      rfl
    · intro call hcall
      obtain ⟨job, _, rfl⟩ := List.mem_map.mp (hcalls'.subset hcall)
      rfl
    · simpa [Function.comp_def] using hcalls.map (·.1)
    · simpa [Function.comp_def] using hcalls'.map (·.1)
  · obtain ⟨swept, hdelete, hjobs, htriggers, hcalls, _⟩ := deleteJobs_ok getJobKeys_eq s
    refine ⟨swept, by rw [beforeSchedulerStart, deleteAll, hdelete], hjobs, htriggers, ?_, ?_⟩
    · intro call hcall
      obtain ⟨job, _, rfl⟩ := List.mem_map.mp (hcalls.subset hcall)
      rfl
    · simpa [Function.comp_def] using hcalls.map (·.1)

end MySchedule.Cleanup
