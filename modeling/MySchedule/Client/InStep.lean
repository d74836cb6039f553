import MySchedule.Client.QuartzClientBean
import MySchedule.Server.CleanRuns
import MySchedule.Service.Methods

/-!
# The client beans in step

What a run of either bean makes of the store. The two removals come to the same where
the job and the trigger belong to each other only, and then they do through every run. The
schedules of their triggers stay different.
-/

namespace MySchedule.Client

open Java Keyed Machines
open Registration (JobKey TriggerKey alreadyExists)
open Cleanup (JobStore StoredJob StoredTrigger)
open Service (shownTriggers shownTriggers_perm)
open Server (DEFAULT_GROUP JobDetail jobKey triggerKey hasJob hasTrigger)

/-- The store after an `add`. -/
def added (s : JobStore) : JobStore :=
  if Server.free s "job1" then Server.putNamed s "job1" else s

/-- The store after the 1.8 bean's `removeJob1`. -/
def unscheduled (s : JobStore) : JobStore :=
  match s.triggers.find? (·.key = triggerKey "job1") with
  | none => s
  | some t => s.removeTrigger t

/-- The store after the 2.0 bean's `runRemoveJob`. -/
def deleted (s : JobStore) : JobStore :=
  if s.jobs.any (·.key = jobKey "job1") then s.removeJob (jobKey "job1") else s

/-- The store after an `add` that schedules the job so. -/
def scheduled (schedule : Schedule) (s : ClientStore) : ClientStore :=
  if Server.free s.entries "job1" then
    ⟨Server.putNamed s.entries "job1", Function.update s.scheduleOf (triggerKey "job1") schedule⟩
  else s

/-- The schedule of the 1.8 bean: every second. -/
def everySecond : Schedule := .cron "* * * * * ?"

/-- The schedule of the 2.0 bean: once. -/
def once : Schedule := .simple 0 0

/-- The job and the trigger are not there, or belong to each other only, the job not durable. -/
def Paired (s : JobStore) : Prop :=
  Server.free s "job1" = true ∨ ⟨jobKey "job1", false⟩ ∈ s.jobs ∧
    ⟨triggerKey "job1", jobKey "job1"⟩ ∈ s.triggers ∧
    ∀ t ∈ s.triggers, t.jobKey = jobKey "job1" → t.key = triggerKey "job1"

section

variable {toString : Throwable → String} {text : JobDetail → String} {s : JobStore}
  {schedule : Schedule}

@[simp] theorem scheduled_entries (schedule : Schedule) (s : ClientStore) :
    (scheduled schedule s).entries = added s.entries := by
  unfold scheduled added
  split
  · rfl
  · rfl

/-- After a normal return the second part runs from where the first has ended. -/
theorem run_bind_of_ok {α γ : Type} {m : ClientM α} {f : α → ClientM γ} {x x' : Session} {a : α}
    (hm : m.run.run x = (.ok a, x')) : (m >>= f).run.run x = (f a).run.run x' := by
  simp only [ExceptT.run_bind, StateT.run_bind, hm]
  rfl

/-- An exception skips the second part. -/
theorem run_bind_of_error {α γ : Type} {m : ClientM α} {f : α → ClientM γ} {x x' : Session}
    {ex : Throwable} (hm : m.run.run x = (.error ex, x')) :
    (m >>= f).run.run x = (.error ex, x') := by
  simp only [ExceptT.run_bind, StateT.run_bind, hm]
  rfl

/-- Logging adds a line and leaves the store alone. -/
theorem run_info (message : String) (x : Session) :
    (logger.info message).run.run x = (.ok (), { x with log := x.log ++ [message] }) := rfl

/-- Dropping the answer of a call that returns. -/
theorem run_discard_of_ok {α : Type} {m : ClientM α} {x x' : Session} {a : α}
    (hm : m.run.run x = (.ok a, x')) : (discard m).run.run x = (.ok ⟨⟩, x') :=
  run_bind_of_ok (f := fun _ => pure PUnit.unit) hm

/-- Dropping an answer keeps the exception. -/
theorem run_discard_of_error {α : Type} {m : ClientM α} {x x' : Session} {ex : Throwable}
    (hm : m.run.run x = (.error ex, x')) : (discard m).run.run x = (.error ex, x') :=
  run_bind_of_error (f := fun _ => pure PUnit.unit) hm

/-- A call that returns leaves the store as the call has it. -/
theorem run_call_of_ok {α : Type} {f : ClientStore → Except Throwable (α × ClientStore)}
    {x : Session} {a : α} {s : ClientStore} (hf : f x.store = .ok (a, s)) :
    (call f).run.run x = (.ok a, { x with store := s }) := by
  have hrun : (call f).run.run x = (answered x (f x.store)).run.run x := rfl
  rw [hrun, hf]
  rfl

/-- A removal leaves the schedules of the entries alone. -/
theorem run_removal_of_ok {α : Type} {f : JobStore → Except Throwable (α × JobStore)}
    {x : Session} {a : α} {s : JobStore} (hf : f x.store.entries = .ok (a, s)) :
    (removal f).run.run x = (.ok a, { x with store := { x.store with entries := s } }) := by
  have hmap : ((f x.store.entries).map fun out =>
      (out.1, ({ x.store with entries := out.2 } : ClientStore))) =
        .ok (a, { x.store with entries := s }) := by
    rw [hf]
    rfl
  exact run_call_of_ok hmap

/-- A query leaves the store alone. -/
theorem run_query_of_ok {α : Type} {f : JobStore → Except Throwable α} {x : Session} {a : α}
    (hf : f x.store.entries = .ok a) : (query f).run.run x = (.ok a, x) :=
  run_call_of_ok (f := fun s => (f s.entries).map (·, s)) (by rw [hf]; rfl)

/-- A call that throws leaves the store alone. -/
theorem run_call_of_error {α : Type} {f : ClientStore → Except Throwable (α × ClientStore)}
    {x : Session} {ex : Throwable} (hf : f x.store = .error ex) :
    (call f).run.run x = (.error ex, x) := by
  have hrun : (call f).run.run x = (answered x (f x.store)).run.run x := rfl
  rw [hrun, hf]
  rfl

/-- Three steps, of which the second one calls the scheduler. -/
theorem steps_store_of_ok {α : Type} {m : ClientM α} {a : α} {s' : ClientStore} (message : String)
    {f : α → ClientM Unit} {x : Session}
    (hm : ∀ log, m.run.run ⟨x.store, log⟩ = (.ok a, ⟨s', log⟩))
    (hf : ∀ log, ((f a).run.run ⟨s', log⟩).2.store = s') :
    ((do
      logger.info message
      let a ← m
      f a : ClientM Unit).run.run x).2.store = s' := by
  rw [run_bind_of_ok (run_info message x), run_bind_of_ok (hm _)]
  exact hf _

/-- An operation whose first call throws leaves the store alone, whatever it logs. -/
theorem steps_store_of_error {α : Type} {m : ClientM α} {ex : Throwable} (message : String)
    {f : α → ClientM Unit} {x : Session}
    (hm : ∀ log, m.run.run ⟨x.store, log⟩ = (.error ex, ⟨x.store, log⟩)) :
    ((do
      logger.info message
      let a ← m
      f a : ClientM Unit).run.run x).2.store = x.store := by
  rw [run_bind_of_ok (run_info message x), run_bind_of_error (hm _)]

/-- Adding the job, in either bean. -/
theorem scheduleJob_store {job : JobDetail} {trigger : Trigger} (hjob : job.key = jobKey "job1")
    (hdurable : job.durable = false) (htrigger : trigger = ⟨triggerKey "job1", schedule⟩)
    (before after : String) (x : Session) :
    ((do
      logger.info before
      discard (scheduler.scheduleJob job trigger)
      logger.info after : ClientM Unit).run.run x).2.store = scheduled schedule x.store := by
  obtain ⟨key, jobClass, durable, data⟩ := job
  cases hjob
  cases hdurable
  cases htrigger
  cases hfree : Server.free x.store.entries "job1" with
  | true =>
    have hnot : (hasJob x.store.entries (jobKey "job1") ||
        hasTrigger x.store.entries (triggerKey "job1")) = false := by
      simpa [Server.free] using hfree
    have hcall : ∀ log, (scheduler.scheduleJob ⟨jobKey "job1", jobClass, false, data⟩
        ⟨triggerKey "job1", schedule⟩).run.run ⟨x.store, log⟩ =
          (.ok ⟨⟩, ⟨⟨Server.putNamed x.store.entries "job1",
            Function.update x.store.scheduleOf (triggerKey "job1") schedule⟩, log⟩) :=
      fun log => run_call_of_ok (if_neg (by simp [hnot]))
    rw [scheduled, hfree, if_pos rfl]
    exact steps_store_of_ok before (f := fun _ => logger.info after)
      (fun log => run_discard_of_ok (hcall log)) fun _ => rfl
  | false =>
    have hthere : (hasJob x.store.entries (jobKey "job1") ||
        hasTrigger x.store.entries (triggerKey "job1")) = true := by
      simpa only [Server.free, Bool.not_eq_false'] using hfree
    have hcall : ∀ log, (scheduler.scheduleJob ⟨jobKey "job1", jobClass, false, data⟩
        ⟨triggerKey "job1", schedule⟩).run.run ⟨x.store, log⟩ =
          (.error alreadyExists, ⟨x.store, log⟩) := fun log => run_call_of_error (if_pos hthere)
    rw [scheduled, hfree, if_neg (by decide)]
    exact steps_store_of_error before (f := fun _ => logger.info after)
      fun log => run_discard_of_error (hcall log)

/-- Removing the job, in either bean. -/
theorem removal_store {m : ClientM Bool} {ret : Bool} {s' : ClientStore} (message yes no : String)
    {x : Session} (hm : ∀ log, m.run.run ⟨x.store, log⟩ = (.ok ret, ⟨s', log⟩)) :
    ((do
      logger.info message
      let ret ← m
      if ret then logger.info yes else logger.error no : ClientM Unit).run.run x).2.store = s' := by
  refine steps_store_of_ok message hm fun log => ?_
  cases ret
  · rfl
  · rfl

/-- The 1.8 bean unschedules the trigger. -/
theorem removeJob1_store (x : Session) : (Quartz18.removeJob1.run.run x).2.store =
    { x.store with entries := unscheduled x.store.entries } := by
  unfold unscheduled
  cases hfind : x.store.entries.triggers.find? (·.key = triggerKey "job1") with
  | none =>
    have hcall : Cleanup.unscheduleJob "job1" DEFAULT_GROUP x.store.entries =
        .ok (false, x.store.entries) := by
      have hfound : x.store.entries.triggers.find?
        (·.key = (⟨"job1", DEFAULT_GROUP⟩ : TriggerKey)) = none := hfind
      simp only [Cleanup.unscheduleJob, hfound]
    exact removal_store _ _ _ fun log => run_removal_of_ok hcall
  | some t =>
    have hcall : Cleanup.unscheduleJob "job1" DEFAULT_GROUP x.store.entries =
        .ok (true, x.store.entries.removeTrigger t) := by
      have hfound : x.store.entries.triggers.find?
        (·.key = (⟨"job1", DEFAULT_GROUP⟩ : TriggerKey)) = some t := hfind
      simp only [Cleanup.unscheduleJob, hfound]
    exact removal_store _ _ _ fun log => run_removal_of_ok hcall

/-- The 2.0 bean deletes the job. -/
theorem runRemoveJob_store (x : Session) : (Quartz20.runRemoveJob.run.run x).2.store =
    { x.store with entries := deleted x.store.entries } := by
  unfold deleted
  cases hany : x.store.entries.jobs.any (·.key = jobKey "job1") with
  | false =>
    exact removal_store _ _ _ fun log => run_removal_of_ok (a := false) (if_neg (by simp [hany]))
  | true => exact removal_store _ _ _ fun log => run_removal_of_ok (a := true) (if_pos hany)

/-- A use of the 2.0 bean. -/
theorem client20_store (s : ClientStore) (u : Use) : ((client20 text).step s u).2 =
    match u with
    | .add => scheduled once s
    | .remove => { s with entries := deleted s.entries } := by
  cases u with
  | add => exact scheduleJob_store rfl rfl rfl _ _ ⟨s, []⟩
  | remove => exact runRemoveJob_store ⟨s, []⟩

/-- A handler runs from where the exception was thrown. -/
theorem run_tryCatch {α : Type} (m : ClientM α) (handle : Throwable → ClientM α) (x : Session) :
    (tryCatch m handle).run.run x =
      match m.run.run x with
      | (.ok a, x') => (.ok a, x')
      | (.error ex, x') => (handle ex).run.run x' := by
  rw [ExceptT.run_tryCatch, StateT.run_bind]
  rcases m.run.run x with ⟨ex | a, x'⟩
  · rfl
  · rfl

/-- A handler that is not needed is not run. -/
theorem run_tryCatch_of_ok {α : Type} {m : ClientM α} {handle : Throwable → ClientM α}
    {x x' : Session} {a : α} (hm : m.run.run x = (.ok a, x')) :
    (tryCatch m handle).run.run x = (.ok a, x') := by
  rw [run_tryCatch, hm]

/-- An exception that is wrapped and thrown on leaves what was there. -/
theorem tryCatch_wrapped_store {α : Type} (m : ClientM α) (x : Session) :
    ((tryCatch m (wrapped toString)).run.run x).2.store = (m.run.run x).2.store := by
  rw [run_tryCatch]
  rcases m.run.run x with ⟨ex | a, x'⟩
  · change ((wrapped toString ex).run.run x').2.store = x'.store
    unfold wrapped
    split
    · rfl
    · rfl
  · rfl

/-- The pairs that `getTriggerNames` returns. -/
def triggerPairs (s : JobStore) : List (String × String) :=
  (shownTriggers s).map fun t => (t.key.name, t.key.group)

/-- `getTriggerNames` pairs every trigger's name with its group, and changes nothing. -/
theorem getTriggerNames_run (x : Session) :
    (Quartz18.getTriggerNames toString).run.run x = (.ok (triggerPairs x.store.entries), x) := by
  have hloop : ∀ (groups : List String) (list : List (String × String)),
      (groups.foldlM (fun list triggerGroup => do
        let triggerNames ← scheduler.getTriggerNames triggerGroup
        return list ++ triggerNames.map (·, triggerGroup) : _ → _ → ClientM _) list).run.run x =
      (.ok (list ++ groups.flatMap fun group =>
        (x.store.entries.triggers.filter (·.key.group = group)).map
          fun t => (t.key.name, t.key.group)), x) := by
    intro groups
    induction groups with
    | nil =>
      intro list
      rw [List.foldlM_nil, List.flatMap_nil, List.append_nil]
      rfl
    | cons group groups ih =>
      intro list
      have hnames : (scheduler.getTriggerNames group).run.run x =
          (.ok ((x.store.entries.triggers.filter (·.key.group = group)).map (·.key.name)), x) :=
        run_query_of_ok rfl
      have hpairs : ((x.store.entries.triggers.filter (·.key.group = group)).map (·.key.name)).map
            (·, group) =
          (x.store.entries.triggers.filter (·.key.group = group)).map
            fun t => (t.key.name, t.key.group) := by
        rw [List.map_map]
        apply List.map_congr_left
        intro t ht
        have hgroup : t.key.group = group := by simpa using (List.mem_filter.mp ht).2
        simp [← hgroup]
      rw [List.foldlM_cons, run_bind_of_ok ((run_bind_of_ok hnames).trans rfl), ih, hpairs,
        List.flatMap_cons, List.append_assoc]
  have hgroups : scheduler.getTriggerGroupNames.run.run x =
      (.ok (x.store.entries.triggers.map (·.key.group)).dedup, x) := run_query_of_ok rfl
  unfold Quartz18.getTriggerNames
  rw [run_tryCatch, run_bind_of_ok hgroups, hloop, List.nil_append, triggerPairs, shownTriggers,
    List.map_flatMap]

/-- The lines of `showTriggerNames`. -/
def triggerLines (s : JobStore) : List String :=
  if s.triggers = [] then ["There is no triggers in scheduler yet."]
  else (triggerPairs s).map fun pair => "Trigger: " ++ pair.2 ++ "." ++ pair.1

/-- `showTriggerNames` logs these pairs, or that there are none. -/
theorem showTriggerNames_run (x : Session) :
    (Quartz18.showTriggerNames toString).run.run x =
      (.ok (), { x with log := x.log ++ triggerLines x.store.entries }) := by
  have hlength : (triggerPairs x.store.entries).length = x.store.entries.triggers.length := by
    rw [triggerPairs, List.length_map, (shownTriggers_perm x.store.entries).length_eq]
  have hlines : ∀ (pairs : List (String × String)) (x : Session),
      ((pairs.forM fun pair => logger.info ("Trigger: " ++ pair.2 ++ "." ++ pair.1))).run.run x =
        (.ok (), ⟨x.store, x.log ++
          pairs.map fun pair => "Trigger: " ++ pair.2 ++ "." ++ pair.1⟩) := by
    intro pairs
    induction pairs with
    | nil =>
      intro x
      simp
      rfl
    | cons pair pairs ih =>
      intro x
      refine (run_bind_of_ok (run_info _ x)).trans ((ih _).trans ?_)
      simp
  unfold Quartz18.showTriggerNames
  rw [run_bind_of_ok (getTriggerNames_run x), hlength, triggerLines]
  cases htriggers : x.store.entries.triggers with
  | nil => rfl
  | cons t ts =>
    rw [if_neg (by simp), if_neg (by simp)]
    exact hlines _ x

/-- A run of the 1.8 bean does what its method is for. -/
theorem client18_store (s : ClientStore) (runMethodName : Option String) :
    ((client18 toString).step s runMethodName).2 =
      match use runMethodName with
      | some .add => scheduled everySecond s
      | some .remove => { s with entries := unscheduled s.entries }
      | none => s := by
  have hinvoke : ((client18 toString).step s runMethodName).2 =
      ((Quartz18.invoke toString runMethodName).run.run
        ⟨s, [concat "Invoking " runMethodName]⟩).2.store := by
    have hrun := congrArg (fun out => out.2.store) (run_bind_of_ok
      (f := fun _ => tryCatch (Quartz18.invoke toString runMethodName) (wrapped toString))
      (run_info (concat "Invoking " runMethodName) ⟨s, []⟩))
    exact hrun.trans (tryCatch_wrapped_store _ _)
  rw [hinvoke]
  unfold Quartz18.invoke use
  cases runMethodName with
  | none => rfl
  | some name =>
    by_cases hadd : name = "addJob1"
    · subst hadd
      exact scheduleJob_store rfl rfl rfl _ _ _
    · by_cases hremove : name = "removeJob1"
      · subst hremove
        exact removeJob1_store _
      · by_cases hshow : name = "showTriggerNames"
        · subst hshow
          exact congrArg (fun out => out.2.store) (showTriggerNames_run _)
        · simp only [hadd, hremove, hshow, if_false, Option.some.injEq]
          rfl

/-- A name is free if no job and no trigger has it. -/
theorem free_iff : Server.free s "job1" = true ↔
    (∀ job ∈ s.jobs, job.key ≠ jobKey "job1") ∧ ∀ t ∈ s.triggers, t.key ≠ triggerKey "job1" := by
  simp [Server.free, hasJob, hasTrigger]

/-- The only trigger of a key. -/
theorem eq_of_trigger_key {t t' : StoredTrigger} (ht : t ∈ s.triggers) (ht' : t' ∈ s.triggers)
    (hkey : t.key = t'.key) : t = t' := List.inj_on_of_nodup_map s.triggers_nodup ht ht' hkey

/-- A job is known by its key. -/
theorem eq_of_job_key {job job' : StoredJob} (hjob : job ∈ s.jobs) (hjob' : job' ∈ s.jobs)
    (hkey : job.key = job'.key) : job = job' :=
  List.inj_on_of_nodup_map s.jobs_nodup hjob hjob' hkey

/-- Unscheduling a trigger and deleting a job that belong to each other only is the same. -/
theorem removeTrigger_eq_removeJob {key : JobKey} {t : StoredTrigger}
    (hjob : ⟨key, false⟩ ∈ s.jobs) (ht : t ∈ s.triggers) (hof : t.jobKey = key)
    (honly : ∀ t' ∈ s.triggers, t'.jobKey = key → t'.key = t.key) :
    s.removeTrigger t = s.removeJob key := by
  have htriggers : (s.removeTrigger t).triggers = (s.removeJob key).triggers := by
    apply List.filter_congr
    intro t' ht'
    have hiff : t'.key = t.key ↔ t'.jobKey = key := by
      constructor
      · intro hkey
        rw [eq_of_trigger_key ht' ht hkey, hof]
      · exact honly t' ht'
    simp [hiff]
  refine JobStore.eq_of_lists ?_ htriggers
  apply List.filter_congr
  intro job hjob'
  by_cases hkey : job.key = key
  · have hsame : job = ⟨key, false⟩ := eq_of_job_key hjob' hjob hkey
    subst hsame
    have hnone : ∀ t' ∈ s.triggers, ¬t'.key = t.key → ¬t'.jobKey = key :=
      fun t' ht' hne hfires => hne (honly t' ht' hfires)
    simpa [hof] using hnone
  · simp [hof, hkey]

/-- Otherwise the one removal leaves what the other takes. -/
theorem only_of_removeTrigger_eq_removeJob {key : JobKey} {job : StoredJob} {t : StoredTrigger}
    (hjob : job ∈ s.jobs) (hkey : job.key = key) (ht : t ∈ s.triggers)
    (heq : s.removeTrigger t = s.removeJob key) :
    job.durable = false ∧ t.jobKey = key ∧
      ∀ t' ∈ s.triggers, t'.jobKey = key → t'.key = t.key := by
  refine ⟨?_, ?_, fun t' ht' hfires => ?_⟩
  · by_contra hdurable
    have hmem : job ∈ (s.removeJob key).jobs :=
      heq ▸ List.mem_filter.mpr ⟨hjob, by simp [hdurable]⟩
    simpa [hkey] using (List.mem_filter.mp hmem).2
  · by_contra hne
    have hmem : t ∈ (s.removeTrigger t).triggers :=
      heq ▸ List.mem_filter.mpr ⟨ht, by simpa using hne⟩
    simpa using (List.mem_filter.mp hmem).2
  · by_contra hne
    have hmem : t' ∈ (s.removeJob key).triggers :=
      heq ▸ List.mem_filter.mpr ⟨ht', by simpa using hne⟩
    simpa [hfires] using (List.mem_filter.mp hmem).2

/-- What is found under the key is a trigger of that key. -/
theorem find?_triggerKey {t : StoredTrigger}
    (hfind : s.triggers.find? (·.key = triggerKey "job1") = some t) :
    t ∈ s.triggers ∧ t.key = triggerKey "job1" :=
  ⟨List.mem_of_find?_eq_some hfind, by simpa using List.find?_some hfind⟩

/-- Paired, the job and its trigger go together. -/
theorem Paired.unscheduled_eq_deleted (h : Paired s) : unscheduled s = deleted s := by
  rcases h with hfree | ⟨hjob, ht, honly⟩
  · obtain ⟨hjobs, htriggers⟩ := free_iff.mp hfree
    have hfind : s.triggers.find? (·.key = triggerKey "job1") = none := by simpa using htriggers
    have hany : s.jobs.any (·.key = jobKey "job1") = false := by simpa using hjobs
    simp only [unscheduled, deleted, hfind, hany, Bool.false_eq_true, if_false]
  · have hany : s.jobs.any (·.key = jobKey "job1") = true :=
      List.any_eq_true.mpr ⟨_, hjob, by simp⟩
    have hsome : (s.triggers.find? (·.key = triggerKey "job1")).isSome :=
      List.find?_isSome.mpr ⟨_, ht, by simp⟩
    obtain ⟨t, hfind⟩ := Option.isSome_iff_exists.mp hsome
    obtain ⟨hmem, hkey⟩ := find?_triggerKey hfind
    obtain rfl := eq_of_trigger_key hmem ht hkey
    simp only [unscheduled, deleted, hfind, hany, if_true]
    exact removeTrigger_eq_removeJob hjob ht rfl honly

/-- The two removals come to the same exactly where the job and its trigger are paired. -/
theorem unscheduled_eq_deleted_iff : unscheduled s = deleted s ↔ Paired s := by
  refine ⟨fun heq => ?_, Paired.unscheduled_eq_deleted⟩
  unfold unscheduled deleted at heq
  cases hfind : s.triggers.find? (·.key = triggerKey "job1") with
  | none =>
    have hnone : ∀ t ∈ s.triggers, t.key ≠ triggerKey "job1" := by simpa using hfind
    refine Or.inl (free_iff.mpr ⟨fun job hjob hkey => ?_, hnone⟩)
    have hany : s.jobs.any (·.key = jobKey "job1") = true :=
      List.any_eq_true.mpr ⟨job, hjob, by simpa using hkey⟩
    simp only [hfind, hany, if_true] at heq
    have hmem : job ∈ (s.removeJob (jobKey "job1")).jobs := heq ▸ hjob
    simpa [hkey] using (List.mem_filter.mp hmem).2
  | some t =>
    obtain ⟨ht, hkey⟩ := find?_triggerKey hfind
    cases hany : s.jobs.any (·.key = jobKey "job1") with
    | false =>
      simp only [hfind, hany, Bool.false_eq_true, if_false] at heq
      have hmem : t ∈ (s.removeTrigger t).triggers := by rwa [heq]
      simpa using (List.mem_filter.mp hmem).2
    | true =>
      simp only [hfind, hany, if_true] at heq
      obtain ⟨job, hjob, hjobKey⟩ := List.any_eq_true.mp hany
      have hjobKey : job.key = jobKey "job1" := by simpa using hjobKey
      obtain ⟨hdurable, hof, honly⟩ := only_of_removeTrigger_eq_removeJob hjob hjobKey ht heq
      refine Or.inr ⟨?_, ?_, fun t' ht' hfires => (honly t' ht' hfires).trans hkey⟩
      · have hsame : job = ⟨jobKey "job1", false⟩ := by
          rw [← hjobKey, ← hdurable]
        rwa [← hsame]
      · have hsame : t = ⟨triggerKey "job1", jobKey "job1"⟩ := by
          rw [← hkey, ← hof]
        rwa [← hsame]

/-- A job and a trigger that are removed are paired again by the next `add`. -/
theorem Paired.added (h : Paired s) : Paired (added s) := by
  unfold Client.added
  split
  · next hfree =>
    refine Or.inr ⟨?_, ?_, ?_⟩
    · exact List.mem_append_right _ (List.mem_singleton.mpr rfl)
    · exact List.mem_append_right _ (List.mem_singleton.mpr rfl)
    · intro t ht hfires
      rcases List.mem_append.mp ht with ht | ht
      · -- a trigger that was there before fires a job that was there before
        obtain ⟨job, hjob, hkey⟩ := List.mem_map.mp (s.refers t (List.mem_filter.mp ht).1)
        exact absurd (hkey.trans hfires) ((free_iff.mp hfree).1 job hjob)
      · rw [List.mem_singleton.mp ht]
  · exact h

/-- Deleting the job takes its trigger with it. -/
theorem Paired.deleted (h : Paired s) : Paired (deleted s) := by
  unfold Client.deleted
  split
  · next hany =>
    rcases h with hfree | ⟨_, ht, _⟩
    · obtain ⟨job, hjob, hkey⟩ := List.any_eq_true.mp hany
      exact absurd (by simpa using hkey) ((free_iff.mp hfree).1 job hjob)
    · refine Or.inl (free_iff.mpr ⟨fun job hjob => ?_, fun t hmem hkey => ?_⟩)
      · simpa using (List.mem_filter.mp hjob).2
      · obtain ⟨hmem, hne⟩ := List.mem_filter.mp hmem
        obtain rfl := eq_of_trigger_key hmem ht hkey
        simp at hne
  · exact h

end

/-- The two stores have the same jobs and triggers, and each trigger has the same schedule in
both, unless it is the one of `job1`, which the beans have scheduled every second and once. -/
structure InStep (x y : ClientStore) : Prop where
  entries : x.entries = y.entries
  schedules : ∀ t ∈ x.entries.triggers, x.scheduleOf t.key = y.scheduleOf t.key ∨
    t.key = triggerKey "job1" ∧ x.scheduleOf t.key = everySecond ∧ y.scheduleOf t.key = once

/-- A store is in step with itself. -/
theorem InStep.refl (s : ClientStore) : InStep s s := ⟨rfl, fun _ _ => Or.inl rfl⟩

/-- An `add` of both beans keeps the stores in step. -/
theorem InStep.scheduled {x y : ClientStore} (h : InStep x y) :
    InStep (scheduled everySecond x) (scheduled once y) := by
  unfold Client.scheduled
  rw [← h.entries]
  cases hfree : Server.free x.entries "job1" with
  | false =>
    rw [if_neg (by decide), if_neg (by decide)]
    exact h
  | true =>
    rw [if_pos rfl, if_pos rfl]
    refine ⟨rfl, fun t ht => ?_⟩
    by_cases hkey : t.key = triggerKey "job1"
    · exact Or.inr ⟨hkey, by simp [hkey], by simp [hkey]⟩
    · have hold : t ∈ x.entries.triggers := by
        rcases List.mem_append.mp ht with ht | ht
        · exact (List.mem_filter.mp ht).1
        · rw [List.mem_singleton.mp ht] at hkey
          exact absurd rfl hkey
      simpa [hkey] using h.schedules t hold

/-- A removal that leaves no new trigger keeps the stores in step. -/
theorem InStep.removed {x y : ClientStore} (h : InStep x y) {s : JobStore}
    (hs : ∀ t ∈ s.triggers, t ∈ x.entries.triggers) :
    InStep { x with entries := s } { y with entries := s } :=
  ⟨rfl, fun t ht => h.schedules t (hs t ht)⟩

/-- Deleting adds no trigger. -/
theorem mem_of_mem_deleted {s : JobStore} {t : StoredTrigger} (ht : t ∈ (deleted s).triggers) :
    t ∈ s.triggers := by
  unfold deleted at ht
  split at ht
  · exact (List.mem_filter.mp ht).1
  · exact ht

/-- Paired, the beans stay in step. -/
theorem inStep_after {toString : Throwable → String} {text : JobDetail → String}
    (names : List (Option String)) {x y : ClientStore} (h : InStep x y)
    (hpaired : Paired x.entries) :
    InStep ((client18 toString).after x names) ((client20 text).after y (names.filterMap use)) := by
  induction names generalizing x y with
  | nil => exact h
  | cons name names ih =>
    have h18 : ((client18 toString).step x name).2 = _ := client18_store x name
    rw [Machine.after_cons, h18]
    cases huse : use name with
    | none =>
      rw [List.filterMap_cons_none huse]
      exact ih h hpaired
    | some u =>
      have h20 : ((client20 text).step y u).2 = _ := client20_store y u
      rw [List.filterMap_cons_some huse, Machine.after_cons, h20]
      cases u with
      | add => exact ih h.scheduled (by simpa using hpaired.added)
      | remove =>
        simp only
        rw [unscheduled_eq_deleted_iff.mpr hpaired, ← h.entries]
        exact ih (h.removed fun _ => mem_of_mem_deleted) hpaired.deleted

/-- As long as no trigger fires, the two beans keep the same jobs and triggers through every run,
with any runs of other methods in between, if and only if the job and the trigger are both not
there at first or belong to each other only, the job not being durable. The schedules are then
the same too but for that of `job1`: after each `add` that goes through, the 1.8 store has it
every second and the 2.0 store once. -/
theorem clientBeans_inStep_iff (toString : Throwable → String) (text : JobDetail → String)
    (s : ClientStore) :
    ((∀ runMethodNames : List (Option String),
      ((client18 toString).after s runMethodNames).entries =
        ((client20 text).after s (runMethodNames.filterMap use)).entries) ↔ Paired s.entries) ∧
    (Paired s.entries → ∀ runMethodNames : List (Option String),
      InStep ((client18 toString).after s runMethodNames)
        ((client20 text).after s (runMethodNames.filterMap use))) ∧
    ∀ x y, InStep x y → Server.free x.entries "job1" = true →
      ((client18 toString).step x (some "addJob1")).2.scheduleOf (triggerKey "job1") =
          everySecond ∧
        ((client20 text).step y .add).2.scheduleOf (triggerKey "job1") = once := by
  have hstep : Paired s.entries → ∀ runMethodNames : List (Option String),
      InStep ((client18 toString).after s runMethodNames)
        ((client20 text).after s (runMethodNames.filterMap use)) :=
    fun hpaired names => inStep_after names (.refl s) hpaired
  refine ⟨?_, hstep, ?_⟩
  · constructor
    · intro h
      have hremove := h [some "removeJob1"]
      have h18 : (client18 toString).after s [some "removeJob1"] =
          { s with entries := unscheduled s.entries } := client18_store s (some "removeJob1")
      have h20 : (client20 text).after s [.remove] =
          { s with entries := deleted s.entries } := client20_store s .remove
      refine unscheduled_eq_deleted_iff.mp ?_
      have huses : [some "removeJob1"].filterMap use = [.remove] := by decide
      rw [huses, h18, h20] at hremove
      exact hremove
    · exact fun hpaired names => (hstep hpaired names).entries
  · intro x y h hfree
    have h18 : ((client18 toString).step x (some "addJob1")).2 = scheduled everySecond x :=
      client18_store x (some "addJob1")
    have h20 : ((client20 text).step y .add).2 = scheduled once y := client20_store y .add
    rw [h18, h20, scheduled, scheduled, ← h.entries, hfree, if_pos rfl, if_pos rfl]
    exact ⟨Function.update_self (triggerKey "job1") everySecond x.scheduleOf,
      Function.update_self (triggerKey "job1") once y.scheduleOf⟩

/-- `showTriggerNames` logs every trigger of the store once, by its group and name, or that
there is none, and changes nothing. -/
theorem showTriggerNames_lists (toString : Throwable → String) (s : ClientStore) :
    ∃ triggers : List StoredTrigger, triggers.Perm s.entries.triggers ∧
      (client18 toString).step s (some "showTriggerNames") =
        ((.ok (), "Invoking showTriggerNames" ::
          if triggers = [] then ["There is no triggers in scheduler yet."]
          else triggers.map fun t => "Trigger: " ++ t.key.group ++ "." ++ t.key.name), s) := by
  refine ⟨shownTriggers s.entries, shownTriggers_perm s.entries, ?_⟩
  have hshow : (Quartz18.run toString (some "showTriggerNames")).run.run ⟨s, []⟩ =
      (.ok (), ⟨s, "Invoking showTriggerNames" :: triggerLines s.entries⟩) := by
    unfold Quartz18.run
    rw [run_bind_of_ok (run_info _ ⟨s, []⟩)]
    have hinvoke : (Quartz18.invoke toString (some "showTriggerNames")).run.run
        ⟨s, ["Invoking showTriggerNames"]⟩ =
          (.ok (), ⟨s, "Invoking showTriggerNames" :: triggerLines s.entries⟩) :=
      showTriggerNames_run _
    exact run_tryCatch_of_ok hinvoke
  have hnil : s.entries.triggers = [] ↔ shownTriggers s.entries = [] := by
    rw [← List.length_eq_zero_iff, ← (shownTriggers_perm s.entries).length_eq,
      List.length_eq_zero_iff]
  have hlines : triggerLines s.entries = if shownTriggers s.entries = [] then
        ["There is no triggers in scheduler yet."]
      else (shownTriggers s.entries).map fun t =>
        "Trigger: " ++ t.key.group ++ "." ++ t.key.name := by
    simp only [triggerLines, hnil, triggerPairs, List.map_map]
    rfl
  rw [← hlines]
  exact congrArg (fun out => ((out.1, out.2.log), out.2.store)) hshow

end MySchedule.Client
