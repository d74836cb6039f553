import MySchedule.Registration.Scheduler
import Mathlib.Data.List.Dedup

/-!
# The job store under a clean-up

The stored jobs, durable or not, and triggers, by name and group, with the calls a
clean-up makes on them. Every stored trigger fires a stored job. A job that is not
durable goes with its last trigger.
-/

namespace MySchedule.Cleanup

open Java Registration

structure StoredJob where
  key : JobKey
  durable : Bool
  deriving DecidableEq, Repr

structure StoredTrigger where
  key : TriggerKey
  jobKey : JobKey
  deriving DecidableEq, Repr

/-- The store: unique keys, and no trigger without its job. -/
structure JobStore where
  jobs : List StoredJob
  triggers : List StoredTrigger
  jobs_nodup : (jobs.map (·.key)).Nodup
  triggers_nodup : (triggers.map (·.key)).Nodup
  refers : ∀ t ∈ triggers, t.jobKey ∈ jobs.map (·.key)

namespace JobStore

/-- A store is its jobs and its triggers. -/
theorem eq_of_lists {s s' : JobStore} (hjobs : s.jobs = s'.jobs)
    (htriggers : s.triggers = s'.triggers) : s = s' := by
  cases s
  cases s'
  cases hjobs
  cases htriggers
  rfl

/-- Some trigger fires the job. -/
def fired (s : JobStore) (job : StoredJob) : Bool := s.triggers.any (·.jobKey = job.key)

/-- Take a trigger away, and its job with it when that is an orphan then. -/
def removeTrigger (s : JobStore) (t : StoredTrigger) : JobStore where
  triggers := s.triggers.filter (·.key ≠ t.key)
  jobs := s.jobs.filter fun job => job.durable || decide (job.key ≠ t.jobKey) ||
    (s.triggers.filter (·.key ≠ t.key)).any (·.jobKey = job.key)
  jobs_nodup := s.jobs_nodup.sublist (List.filter_sublist.map _)
  triggers_nodup := s.triggers_nodup.sublist (List.filter_sublist.map _)
  refers := by
    intro t' ht'
    obtain ⟨job, hjob, hkey⟩ := List.mem_map.mp (s.refers t' (List.mem_filter.mp ht').1)
    refine List.mem_map.mpr ⟨job, List.mem_filter.mpr ⟨hjob, ?_⟩, hkey⟩
    have hfired : (s.triggers.filter (·.key ≠ t.key)).any (·.jobKey = job.key) = true :=
      List.any_eq_true.mpr ⟨t', ht', by simp [hkey]⟩
    rw [hfired, Bool.or_true]

/-- Take a job away with all its triggers. -/
def removeJob (s : JobStore) (key : JobKey) : JobStore where
  triggers := s.triggers.filter (·.jobKey ≠ key)
  jobs := s.jobs.filter (·.key ≠ key)
  jobs_nodup := s.jobs_nodup.sublist (List.filter_sublist.map _)
  triggers_nodup := s.triggers_nodup.sublist (List.filter_sublist.map _)
  refers := by
    intro t ht
    obtain ⟨ht, hne⟩ := List.mem_filter.mp ht
    obtain ⟨job, hjob, hkey⟩ := List.mem_map.mp (s.refers t ht)
    refine List.mem_map.mpr ⟨job, List.mem_filter.mpr ⟨hjob, ?_⟩, hkey⟩
    rwa [hkey]

end JobStore

/-- `scheduler.getTriggerGroupNames()`. -/
def getTriggerGroupNames (s : JobStore) : Except Throwable (List String) :=
  .ok (s.triggers.map (·.key.group)).dedup

/-- `scheduler.getTriggerNames(group)`. -/
def getTriggerNames (group : String) (s : JobStore) : Except Throwable (List String) :=
  .ok ((s.triggers.filter (·.key.group = group)).map (·.key.name))

/-- `scheduler.getJobGroupNames()`. -/
def getJobGroupNames (s : JobStore) : Except Throwable (List String) :=
  .ok (s.jobs.map (·.key.group)).dedup

/-- `scheduler.getJobNames(group)`. -/
def getJobNames (group : String) (s : JobStore) : Except Throwable (List String) :=
  .ok ((s.jobs.filter (·.key.group = group)).map (·.key.name))

/-- `scheduler.getJobKeys(GroupMatcher.jobGroupEquals(group))`. -/
def getJobKeys (group : String) (s : JobStore) : Except Throwable (List JobKey) :=
  .ok ((s.jobs.filter (·.key.group = group)).map (·.key))

/-- `scheduler.unscheduleJob(name, group)`. -/
def unscheduleJob (name group : String) (s : JobStore) : Except Throwable (Bool × JobStore) :=
  match s.triggers.find? (·.key = ⟨name, group⟩) with
  | none => .ok (false, s)
  | some t => .ok (true, s.removeTrigger t)

/-- `scheduler.deleteJob(name, group)`, or `deleteJob` of the key. -/
def deleteJob (key : JobKey) (s : JobStore) : Except Throwable (Bool × JobStore) :=
  if s.jobs.any (·.key = key) then .ok (true, s.removeJob key) else .ok (false, s)

/-- What `unscheduleJob` does to a stored trigger. -/
theorem unscheduleJob_present {s : JobStore} {key : TriggerKey}
    (hkey : key ∈ s.triggers.map (·.key)) : ∃ t ∈ s.triggers, t.key = key ∧
      unscheduleJob key.name key.group s = .ok (true, s.removeTrigger t) := by
  have hfind : s.triggers.find? (·.key = key) ≠ none := by
    simpa using hkey
  obtain ⟨t, ht⟩ := Option.ne_none_iff_exists'.mp hfind
  have hfound : t.key = key := by simpa using List.find?_some ht
  refine ⟨t, List.mem_of_find?_eq_some ht, hfound, ?_⟩
  simp only [unscheduleJob, ht]

/-- What `deleteJob` does to a stored job. -/
theorem deleteJob_present {s : JobStore} {key : JobKey} (hkey : key ∈ s.jobs.map (·.key)) :
    deleteJob key s = .ok (true, s.removeJob key) := by
  have hany : s.jobs.any (·.key = key) = true := by simpa using hkey
  rw [deleteJob, if_pos hany]

end MySchedule.Cleanup
