import MySchedule.Server.JobRuns

/-!
# Servers whose calls go through

A clean-up followed by `QuartzServer2` leaves just the three jobs, whatever was there
before.
-/

namespace MySchedule.Server

open Interaction Java Keyed Machines
open Registration (JobKey TriggerKey FireTime alreadyExists)
open Cleanup (JobStore StoredJob StoredTrigger)
open Utilities (createMap)

/-- No call fails. -/
def fair (clock : Nat → Int) : Weather := ⟨clock, fun _ _ => none⟩

/-- The named job without its details, with the trigger of its name. -/
def putNamed (s : JobStore) (name : String) : JobStore :=
  putTrigger (putJob s ⟨jobKey name, false⟩) ⟨triggerKey name, jobKey name⟩ (mem_putJob s _)

/-- Neither a job nor a trigger of this name is stored. -/
def free (s : JobStore) (name : String) : Bool :=
  !(hasJob s (jobKey name) || hasTrigger s (triggerKey name))

/-- What `scheduleJob` puts for a job that is not durable, by its name alone. -/
theorem putScheduled_eq {s : JobStore} {job : JobDetail} {trigger : SimpleTrigger} {name : String}
    (hjob : job.key = jobKey name) (hdurable : job.durable = false)
    (htrigger : trigger.key = triggerKey name) : putScheduled s job trigger = putNamed s name := by
  obtain ⟨key, jobClass, durable, data⟩ := job
  obtain ⟨tkey, tjob, start, interval, count⟩ := trigger
  simp only at hjob hdurable htrigger
  subst hjob hdurable htrigger
  rfl

/-- Another name stays free. -/
theorem free_putNamed {s : JobStore} {name name' : String} (hne : name' ≠ name) :
    free (putNamed s name) name' = free s name' := by
  have hjobs : hasJob (putNamed s name) (jobKey name') = hasJob s (jobKey name') :=
    any_replace_of_ne StoredJob.key s.jobs ⟨jobKey name, false⟩
      fun he => hne (congrArg JobKey.name he)
  have htriggers : hasTrigger (putNamed s name) (triggerKey name') =
      hasTrigger s (triggerKey name') :=
    any_replace_of_ne StoredTrigger.key s.triggers ⟨triggerKey name, jobKey name⟩
      fun he => hne (congrArg TriggerKey.name he)
  rw [free, hjobs, htriggers]
  rfl

section

variable {toString : Throwable → String} {clock : Nat → Int} {s s' : JobStore} {n n' : Nat}
  {b : QuartzServer}

/-- The clock is read, and moves on. -/
theorem run_currentTimeMillis : Body.runWith (fair clock).serve currentTimeMillis b (s, n) =
    ((.ok (clock n), b), (s, n + 1)) := rfl

/-- `scheduleJob` takes the store's own answer. -/
theorem run_scheduleJob (job : JobDetail) (trigger : SimpleTrigger) :
    Body.runWith (fair clock).serve (scheduler.scheduleJob job trigger) b (s, n) =
      (((onStore (clock n) (.scheduleJob job trigger) s).1, b),
        ((onStore (clock n) (.scheduleJob job trigger) s).2, n + 1)) := rfl

/-- A value that is there is returned without a call. -/
theorem run_orThrow {α : Type} {r : Except Throwable α} {a : α} (h : r = .ok a) :
    Body.runWith (fair clock).serve (orThrow r : ServerM α) b (s, n) = ((.ok a, b), (s, n)) := by
  subst h
  rfl

/-- The one pair of the data map is kept. -/
theorem createMap_sleepTime (sleepTime : Int) :
    createMap Value.toString [some (.text "sleepTime"), some (.long sleepTime)] =
      .ok (LinkedMap.empty.put "sleepTime" (some (.long sleepTime))) := by
  simp [createMap, Utilities.createMapLoop, Value.toString]

/-- One job of `QuartzServer2`: stored with its trigger, or refused with its name taken. -/
theorem createJob_fair (name : String) (delay sleepTime : Int) :
    Body.runWith (fair clock).serve
        (QuartzServer2.createJob toString name delay 20000 sleepTime) b (s, n) =
      if free s name then ((.ok ⟨⟩, b), (putNamed s name, n + 2))
      else ((.error (runtimeException toString alreadyExists), b), (s, n + 2)) := by
  unfold QuartzServer2.createJob
  rw [Body.runWith_bind_of_ok (run_orThrow (createMap_sleepTime sleepTime))]
  unfold createSimpleJob
  rw [Body.runWith_bind_of_ok run_currentTimeMillis,
    Body.runWith_bind_of_ok (run_orThrow (r := SimpleTrigger.build _ _ _ _ _) rfl)]
  cases hfree : free s name with
  | true =>
    have hnot : (hasJob s (jobKey name) || hasTrigger s (triggerKey name)) = false := by
      simpa [free] using hfree
    refine Body.runWith_tryCatch_of_ok (Body.runWith_bind_of_ok (a := (⟨⟩ : FireTime)) ?_)
    rw [run_scheduleJob]
    simp only [onStore, Option.any_none, Bool.false_eq_true, if_false, hnot]
    rw [putScheduled_eq rfl rfl rfl]
    rfl
  | false =>
    have hthere : (hasJob s (jobKey name) || hasTrigger s (triggerKey name)) = true := by
      simpa only [free, Bool.not_eq_false'] using hfree
    have hrefused : ∀ (job : JobDetail) (trigger : SimpleTrigger), job.key = jobKey name →
        trigger.key = triggerKey name → trigger.jobKey = none →
        Body.runWith (fair clock).serve (scheduler.scheduleJob job trigger) b (s, n + 1) =
          ((.error alreadyExists, b), (s, n + 2)) := by
      intro job trigger hjob htrigger hnone
      rw [run_scheduleJob]
      simp only [onStore, hjob, htrigger, hnone, Option.any_none, Bool.false_eq_true, if_false,
        hthere, if_true]
      rfl
    exact Body.runWith_tryCatch_of_error (Body.runWith_bind_of_error (hrefused _ _ rfl rfl rfl))

/-- A job of a free name is put. -/
theorem createJob_free {name : String} (delay sleepTime : Int) (h : free s name = true) :
    Body.runWith (fair clock).serve
        (QuartzServer2.createJob toString name delay 20000 sleepTime) b (s, n) =
      ((.ok ⟨⟩, b), (putNamed s name, n + 2)) := by
  rw [createJob_fair, if_pos h]

/-- A job of a name that is taken ends in the exception of `scheduleJob`. -/
theorem createJob_taken {name : String} (delay sleepTime : Int) (h : free s name = false) :
    Body.runWith (fair clock).serve
        (QuartzServer2.createJob toString name delay 20000 sleepTime) b (s, n) =
      ((.error (runtimeException toString alreadyExists), b), (s, n + 2)) := by
  rw [createJob_fair, if_neg (by simp [h])]

/-- The names `QuartzServer2` gets to, and the store with their jobs. -/
def withFree (s : JobStore) : JobStore := (jobNames.takeWhile (free s)).foldl putNamed s

/-- `QuartzServer2` stores its jobs up to the first whose name is taken, and stops there. -/
theorem quartzServer2_fair :
    ∃ n', Body.runWith (fair clock).serve (QuartzServer2.beforeSchedulerStart toString) b (s, n) =
      ((if jobNames.all (free s) then .ok true
        else .error (runtimeException toString alreadyExists), b), (withFree s, n')) := by
  unfold QuartzServer2.beforeSchedulerStart withFree
  simp only [jobNames, List.all_cons, List.all_nil, Bool.and_true]
  cases h₁ : free s "job1" with
  | false =>
    refine ⟨n + 2, ?_⟩
    rw [Body.runWith_bind_of_error (createJob_taken 5000 10000 h₁)]
    simp [h₁]
  | true =>
    rw [Body.runWith_bind_of_ok (createJob_free 5000 10000 h₁)]
    have hother : ∀ name, name ≠ "job1" → free (putNamed s "job1") name = free s name :=
      fun _ hne => free_putNamed hne
    cases h₂ : free s "job2" with
    | false =>
      refine ⟨n + 2 + 2, ?_⟩
      rw [Body.runWith_bind_of_error (createJob_taken 10000 10000
        ((hother "job2" (by decide)).trans h₂))]
      simp [h₁, h₂]
    | true =>
      rw [Body.runWith_bind_of_ok (createJob_free 10000 10000
        ((hother "job2" (by decide)).trans h₂))]
      have hthird : free (putNamed (putNamed s "job1") "job2") "job3" = free s "job3" :=
        (free_putNamed (by decide)).trans (hother "job3" (by decide))
      refine ⟨n + 2 + 2 + 2, ?_⟩
      cases h₃ : free s "job3" with
      | false =>
        rw [Body.runWith_bind_of_error (createJob_taken 15000 10000 (hthird.trans h₃))]
        simp [h₁, h₂, h₃]
      | true =>
        rw [Body.runWith_bind_of_ok (createJob_free 15000 10000 (hthird.trans h₃))]
        simp [h₁, h₂, h₃]

/-! `QuartzServerClean` runs the clean-up of the store. -/

/-- `deleteJob` takes the store's own answer. -/
theorem run_deleteJob {key : JobKey} {found : Bool}
    (h : Cleanup.deleteJob key s = .ok (found, s')) :
    Body.runWith (fair clock).serve (scheduler.deleteJob key) b (s, n) =
      ((.ok found, b), (s', n + 1)) := by
  have hrun : Body.runWith (fair clock).serve (scheduler.deleteJob key) b (s, n) =
      (((onStore (clock n) (.deleteJob key) s).1, b),
        ((onStore (clock n) (.deleteJob key) s).2, n + 1)) := rfl
  rw [hrun]
  simp only [onStore, h]
  rfl

/-- `getJobKeys` takes the store's own answer. -/
theorem run_getJobKeys {group : String} {keys : List JobKey}
    (h : Cleanup.getJobKeys group s = .ok keys) :
    Body.runWith (fair clock).serve (scheduler.getJobKeys group) b (s, n) =
      ((.ok keys, b), (s, n + 1)) := by
  have hrun : Body.runWith (fair clock).serve (scheduler.getJobKeys group) b (s, n) =
      ((Cleanup.getJobKeys group s, b), (s, n + 1)) := rfl
  rw [hrun, h]

/-- The inner loop deletes the jobs of a group one by one. -/
theorem sweepKeys_fair {keys : List JobKey} {swept : Swept JobStore JobKey}
    (h : sweepKeys Cleanup.deleteJob keys s = .ok swept) :
    ∃ n', Body.runWith (fair clock).serve
        (keys.forM fun key => discard (scheduler.deleteJob key)) b (s, n) =
      ((.ok ⟨⟩, b), (swept.store, n')) := by
  induction keys generalizing s n swept with
  | nil =>
    cases h
    exact ⟨n, rfl⟩
  | cons key keys ih =>
    obtain ⟨⟨found, s'⟩, hdelete, h⟩ := ok_of_bind h
    obtain ⟨rest, hrest, h⟩ := ok_of_bind h
    cases h
    obtain ⟨n', hn⟩ := ih hrest
    exact ⟨n', (Body.runWith_bind_of_ok (Body.runWith_bind_of_ok (run_deleteJob hdelete))).trans hn⟩

/-- The outer loop deletes group by group. -/
theorem sweepGroups_fair {groups : List String} {swept : Swept JobStore JobKey}
    (h : sweepGroups Cleanup.getJobKeys Cleanup.deleteJob groups s = .ok swept) :
    ∃ n', Body.runWith (fair clock).serve (groups.forM fun name => do
        let keys ← scheduler.getJobKeys name
        keys.forM fun key => discard (scheduler.deleteJob key)) b (s, n) =
      ((.ok ⟨⟩, b), (swept.store, n')) := by
  induction groups generalizing s n swept with
  | nil =>
    cases h
    exact ⟨n, rfl⟩
  | cons group groups ih =>
    obtain ⟨keys, hkeys, h⟩ := ok_of_bind h
    obtain ⟨first, hfirst, h⟩ := ok_of_bind h
    obtain ⟨rest, hrest, h⟩ := ok_of_bind h
    cases h
    have hkeysRun : ∃ n₁, Body.runWith (fair clock).serve
        (keys.forM fun key => discard (scheduler.deleteJob key)) b (s, n + 1) =
          ((.ok ⟨⟩, b), (first.store, n₁)) := sweepKeys_fair hfirst
    obtain ⟨n₁, hn₁⟩ := hkeysRun
    obtain ⟨n₂, hn₂⟩ := ih (n := n₁) hrest
    exact ⟨n₂, (Body.runWith_bind_of_ok
      ((Body.runWith_bind_of_ok (run_getJobKeys hkeys)).trans hn₁)).trans hn₂⟩

/-- Its store afterwards is that of the clean-up, and it declines the start. -/
theorem quartzServerClean_fair {swept : Swept JobStore JobKey}
    (h : Cleanup.deleteAll s = .ok swept) :
    ∃ n', Body.runWith (fair clock).serve (QuartzServerClean.beforeSchedulerStart toString) b
      (s, n) = ((.ok false, b), (swept.store, n')) := by
  obtain ⟨groups, hgroups, h⟩ := ok_of_bind h
  have hgroupsRun : ∃ n', Body.runWith (fair clock).serve (groups.forM fun name => do
        let keys ← scheduler.getJobKeys name
        keys.forM fun key => discard (scheduler.deleteJob key)) b (s, n + 1) =
      ((.ok ⟨⟩, b), (swept.store, n')) := sweepGroups_fair h
  obtain ⟨n', hn⟩ := hgroupsRun
  refine ⟨n', ?_⟩
  have hrun : Body.runWith (fair clock).serve scheduler.getJobGroupNames b (s, n) =
      ((.ok groups, b), (s, n + 1)) := by
    rw [← hgroups]
    rfl
  unfold QuartzServerClean.beforeSchedulerStart
  rw [Body.runWith_bind_of_ok (Body.runWith_tryCatch_of_ok
    ((Body.runWith_bind_of_ok hrun).trans hn))]
  rfl

/-! A whole process, by what it does before the start. -/

/-- `initIfNull` makes the scheduler. -/
theorem initIfNull_fair (config : Option String) :
    Body.runWith (fair clock).serve (initIfNull toString) (.new config) (s, 0) =
      ((.ok ⟨⟩, ⟨config, true, 0⟩), (s, 1)) := rfl

/-- `registerShutdown` adds the hook. -/
theorem registerShutdown_fair (config : Option String) :
    Body.runWith (fair clock).serve registerShutdown ⟨config, true, 0⟩ (s, n) =
      ((.ok ⟨⟩, ⟨config, true, 1⟩), (s, n + 1)) := rfl

/-- What `run` makes of the exceptions of its hooks. -/
def rethrown (toString : Throwable → String) (ex : Throwable) : Throwable :=
  if ex.isSchedulerException then runtimeException toString ex else ex

/-- A caught exception is thrown again, wrapped where the source wraps it. -/
theorem run_rethrow {α : Type} (ex : Throwable) :
    Body.runWith (fair clock).serve (rethrow toString ex : ServerM α) b (s, n) =
      ((.error (rethrown toString ex), b), (s, n)) := by
  unfold rethrow rethrown
  split
  · rfl
  · rfl

/-- How `main` ends after a preparation that ended so. -/
def prepared (toString : Throwable → String) : Except Throwable Bool → Except Throwable Unit
  | .ok _ => .ok ()
  | .error ex => .error (rethrown toString ex)

/-- The shutdown hook, if there is one, changes neither the server nor its store. -/
theorem exit_fair {config : Option String} {there : Bool} {hooks : Nat}
    (hhooks : hooks = 0 ∨ hooks = 1) :
    ∃ n', Body.runWith (fair clock).serve (exit toString) ⟨config, there, hooks⟩ (s, n) =
      ((.ok ⟨⟩, ⟨config, there, hooks⟩), (s, n')) := by
  rcases hhooks with rfl | rfl
  · exact ⟨n, rfl⟩
  · exact ⟨n + 1, rfl⟩

/-- A process ends as its `run` does, with the store that this leaves. -/
theorem onto_fair_of_run {server : ServerClass} {config : Option String} {s' : JobStore}
    {ended : Except Throwable Unit} {b' : QuartzServer} {m : Nat}
    (hrun : Body.runWith (fair clock).serve (server.run toString) (.new config) (s, 0) =
      ((ended, b'), (s', m))) (hhooks : b'.hooks = 0 ∨ b'.hooks = 1) :
    ServerProcess.onto toString ⟨server, config, fair clock⟩ s = (.ok ended, s') := by
  have hmain : Body.runWith (fair clock).serve (tryCatch (do
        server.run toString
        return .ok ()) fun ex => return .error ex) (.new config) (s, 0) =
      ((.ok ended, b'), (s', m)) := by
    cases ended with
    | ok u => exact Body.runWith_tryCatch_of_ok ((Body.runWith_bind_of_ok hrun).trans rfl)
    | error ex => exact Body.runWith_tryCatch_of_error (Body.runWith_bind_of_error hrun)
  have hexit : ∃ m', Body.runWith (fair clock).serve (exit toString) b' (s', m) =
      ((.ok ⟨⟩, b'), (s', m')) := exit_fair hhooks
  obtain ⟨m', hexit⟩ := hexit
  unfold ServerProcess.onto process
  rw [Body.runWith_bind_of_ok hmain, Body.runWith_bind_of_ok hexit]
  rfl

/-- A process ends as its preparation did, and leaves the store that the preparation left. -/
theorem onto_fair {server : ServerClass} {config : Option String} {r : Except Throwable Bool}
    (hbefore : ∃ n', Body.runWith (fair clock).serve (server.beforeSchedulerStart toString)
      ⟨config, true, 0⟩ (s, 1) = ((r, ⟨config, true, 0⟩), (s', n'))) :
    ServerProcess.onto toString ⟨server, config, fair clock⟩ s =
      (.ok (prepared toString r), s') := by
  obtain ⟨n', hbefore⟩ := hbefore
  have hrun : ∀ {q : Except Throwable Unit × QuartzServer} {m : Nat},
      Body.runWith (fair clock).serve (tryCatch (do
          let cont ← server.beforeSchedulerStart toString
          if cont then
            registerShutdown
            scheduler.start
            server.afterSchedulerStart
          else scheduler.shutdown true) (rethrow toString)) ⟨config, true, 0⟩ (s, 1) =
        (q, (s', m)) →
      Body.runWith (fair clock).serve (server.run toString) (.new config) (s, 0) = (q, (s', m)) :=
    fun h => (Body.runWith_bind_of_ok (initIfNull_fair config)).trans h
  cases r with
  | error ex =>
    exact onto_fair_of_run (hrun ((Body.runWith_tryCatch_of_error
      (Body.runWith_bind_of_error hbefore)).trans (run_rethrow ex))) (Or.inl rfl)
  | ok cont =>
    cases cont with
    | false =>
      have hdeclined : Body.runWith (fair clock).serve (scheduler.shutdown true) ⟨config, true, 0⟩
          (s', n') = ((.ok ⟨⟩, ⟨config, true, 0⟩), (s', n' + 1)) := rfl
      exact onto_fair_of_run (hrun (Body.runWith_tryCatch_of_ok
        ((Body.runWith_bind_of_ok hbefore).trans hdeclined))) (Or.inl rfl)
    | true =>
      have hstarted : Body.runWith (fair clock).serve (do
          registerShutdown
          scheduler.start
          server.afterSchedulerStart) ⟨config, true, 0⟩ (s', n') =
            ((.ok ⟨⟩, ⟨config, true, 1⟩), (s', n' + 1 + 1)) :=
        (Body.runWith_bind_of_ok (registerShutdown_fair config)).trans rfl
      exact onto_fair_of_run (hrun (Body.runWith_tryCatch_of_ok
        ((Body.runWith_bind_of_ok hbefore).trans hstarted))) (Or.inr rfl)

/-- `QuartzServer2` fails exactly when one of its names is taken. -/
theorem quartzServer2_onto (clock : Nat → Int) (config : Option String) (s : JobStore) :
    ServerProcess.onto toString ⟨.quartzServer2, config, fair clock⟩ s =
      (.ok (if jobNames.all (free s) then .ok ()
        else .error (runtimeException toString alreadyExists)), withFree s) := by
  have honto : ServerProcess.onto toString ⟨.quartzServer2, config, fair clock⟩ s = (_, _) :=
    onto_fair quartzServer2_fair
  rw [honto]
  cases jobNames.all (free s) with
  | true => rfl
  | false => rfl

/-- `QuartzServerClean` empties any store, and is not started. -/
theorem quartzServerClean_onto (clock : Nat → Int) (config : Option String) (s : JobStore) :
    ∃ s', ServerProcess.onto toString ⟨.quartzServerClean, config, fair clock⟩ s =
        (.ok (.ok ()), s') ∧
      ServerProcess.NotStarted toString ⟨.quartzServerClean, config, fair clock⟩ s ∧
      s'.jobs = [] ∧ s'.triggers = [] := by
  obtain ⟨swept, hswept, hjobs, htriggers, _⟩ := Cleanup.deleteJobs_ok Cleanup.getJobKeys_eq s
  have honto : ServerProcess.onto toString ⟨.quartzServerClean, config, fair clock⟩ s =
      (.ok (.ok ()), swept.store) := onto_fair (r := .ok false) (quartzServerClean_fair hswept)
  refine ⟨swept.store, honto, ?_, hjobs, htriggers⟩
  exact (ServerProcess.course_of_onto honto).of_declined (by simp [ServerClass.answer])

/-- On an empty store `QuartzServer2` adds all of its jobs, and is started. -/
theorem quartzServer2_onto_empty (clock : Nat → Int) (config : Option String)
    (hjobs : s.jobs = []) (htriggers : s.triggers = []) :
    ∃ s', ServerProcess.onto toString ⟨.quartzServer2, config, fair clock⟩ s =
        (.ok (.ok ()), s') ∧
      ServerProcess.Served toString ⟨.quartzServer2, config, fair clock⟩ s ∧
      s'.jobs = jobNames.map (fun name => ⟨jobKey name, false⟩) ∧
      s'.triggers = jobNames.map (fun name => ⟨triggerKey name, jobKey name⟩) := by
  have hfree : ∀ name, free s name = true := by
    intro name
    simp [free, hasJob, hasTrigger, hjobs, htriggers]
  have hall : jobNames.takeWhile (free s) = jobNames := by
    simp [jobNames, hfree]
  have honto : ServerProcess.onto toString ⟨.quartzServer2, config, fair clock⟩ s =
      (.ok (.ok ()), withFree s) := by
    rw [quartzServer2_onto, if_pos (List.all_eq_true.mpr fun name _ => hfree name)]
  refine ⟨withFree s, honto, ?_, ?_, ?_⟩
  · exact (ServerProcess.course_of_onto honto).of_served (by simp [ServerClass.answer])
  · rw [withFree, hall]
    simp [jobNames, putNamed, putTrigger, putJob, hjobs, jobKey]
  · rw [withFree, hall]
    simp [jobNames, putNamed, putTrigger, putJob, htriggers, triggerKey]

end

/-- Where nothing fails, `QuartzServerClean` empties any store and ends without a start, and
`QuartzServer2` fails exactly when one of its names is taken, then with the jobs before that one
stored. So after a clean-up it always succeeds and is started, and the store has its three jobs,
each with its one trigger, and nothing else. -/
theorem clean_then_quartzServer2 (toString : Throwable → String) (clock clock' : Nat → Int)
    (config config' : Option String) (s : JobStore) :
    (ServerProcess.onto toString ⟨.quartzServer2, config, fair clock⟩ s =
      (.ok (if jobNames.all (free s) then .ok ()
        else .error (runtimeException toString alreadyExists)), withFree s)) ∧
    ∃ s' s'', ServerProcess.onto toString ⟨.quartzServerClean, config, fair clock⟩ s =
        (.ok (.ok ()), s') ∧
      ServerProcess.NotStarted toString ⟨.quartzServerClean, config, fair clock⟩ s ∧
      s'.jobs = [] ∧ s'.triggers = [] ∧
      ServerProcess.onto toString ⟨.quartzServer2, config', fair clock'⟩ s' =
        (.ok (.ok ()), s'') ∧
      ServerProcess.Served toString ⟨.quartzServer2, config', fair clock'⟩ s' ∧
      s''.jobs = jobNames.map (fun name => ⟨jobKey name, false⟩) ∧
      s''.triggers = jobNames.map (fun name => ⟨triggerKey name, jobKey name⟩) := by
  refine ⟨quartzServer2_onto clock config s, ?_⟩
  obtain ⟨s', hclean, hnot, hjobs, htriggers⟩ := quartzServerClean_onto clock config s
  obtain ⟨s'', hfilled⟩ := quartzServer2_onto_empty clock' config' hjobs htriggers
  exact ⟨s', s'', hclean, hnot, hjobs, htriggers, hfilled⟩

end MySchedule.Server
