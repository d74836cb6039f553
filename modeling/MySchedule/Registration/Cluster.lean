import MySchedule.Registration.SingleRun
import MySchedule.Interaction.Pool

/-!
# Registration by a cluster

Any number of nodes with one configuration register on one scheduler at the same
time, their calls interleaved in any order. If a registration alone completes,
so does every node, after a bounded number of its own calls, and when all have
completed the scheduler holds what the registration alone leaves.
-/

namespace MySchedule.Registration

open Interaction Java Keyed

section CallBound

variable (cfg : BeanConfig)

/-- How many calls a registration without XML files and transaction makes at most: a lookup
and an addition for each job, one call for each calendar, and for each trigger its lookup, a
job's two calls, and scheduling and rescheduling. -/
def callBound : ℕ :=
  2 * cfg.jobList.length + (cfg.calendarMap.entries.length + 5 * cfg.triggerList.length)

/-- `mayAddJob` asks at most once. -/
theorem mayAddJob_calls (jobDetail : Option JobDetail) :
    (mayAddJob cfg jobDetail).CallsAtMost 1 :=
  .ite (.pure _ _) ((Body.CallsAtMost.perform _).bind (n := 0) fun _ => .pure _ _)

/-- A job takes at most a question and an addition. -/
theorem addJobToScheduler_calls (jobDetail : Option JobDetail) :
    (addJobToScheduler cfg jobDetail).CallsAtMost 2 :=
  (mayAddJob_calls cfg jobDetail).bind (n := 1) fun _ =>
    .ite ((Body.CallsAtMost.perform _).bind (n := 0) fun _ => .pure _ _) (.pure _ _)

/-- A trigger's job detail takes no more calls than a job. -/
theorem registerAwareJob_calls (jobDetail : Option JobDetail) :
    (registerAwareJob cfg jobDetail).CallsAtMost 2 := by
  refine Body.CallsAtMost.get.bind (n := 2) fun b => ?_
  cases b.jobDetails with
  | none => exact .throw _ _
  | some jobDetails =>
    exact .ite ((addJobToScheduler_calls cfg jobDetail).bind (n := 0) fun _ =>
      .ite (.set _ _) (.pure _ _)) (.pure _ _)

/-- Nor does the job of any trigger. -/
theorem registerJobOfTrigger_calls (t : Trigger) : (registerJobOfTrigger cfg t).CallsAtMost 2 := by
  unfold registerJobOfTrigger
  cases t.kind with
  | plain => exact .pure _ _
  | jobDetailAware jobDetail => exact registerAwareJob_calls cfg jobDetail

/-- A trigger is stored by two calls at most. -/
theorem storeTrigger_calls (triggerExists : Bool) (t : Trigger) :
    (storeTrigger cfg triggerExists t).CallsAtMost 2 := by
  have hagain : (discard (Scheduler.rescheduleJob t.key t)).CallsAtMost 1 :=
    (Body.CallsAtMost.perform _).discard
  refine .ite ?_ (hagain.mono (by omega))
  exact Body.CallsAtMost.tryCatch (k := 1) (n := 1) (Body.CallsAtMost.perform _).discard fun _ =>
    .ite (.ite hagain (.pure _ _)) (.throw _ _)

/-- A trigger takes five calls at most: two for its job, one question, two to store it. -/
theorem addTriggerToScheduler_calls (t : Trigger) :
    (addTriggerToScheduler cfg t).CallsAtMost 5 :=
  (Body.CallsAtMost.perform _).bind (n := 4) fun existing => .ite
    ((registerJobOfTrigger_calls cfg t).bind (n := 2) fun _ =>
      (storeTrigger_calls cfg existing.isSome t).bind (n := 0) fun _ => .pure _ _) (.pure _ _)

/-- One call for each calendar. -/
theorem registerCalendars_calls :
    (registerCalendars cfg).CallsAtMost cfg.calendarMap.entries.length := by
  have hentries : (cfg.calendars.map AList.entries).getD [] = cfg.calendarMap.entries := by
    cases hc : cfg.calendars <;> simp [BeanConfig.calendarMap, hc]
  unfold registerCalendars
  rw [hentries, ← Nat.mul_one cfg.calendarMap.entries.length]
  exact .forM (fun _ => .perform _) _

/-- Five calls at most for each trigger. -/
theorem registerTriggers_calls :
    (registerTriggers cfg).CallsAtMost (5 * cfg.triggerList.length) := by
  rw [Nat.mul_comm]
  exact .forM (fun t => (addTriggerToScheduler_calls cfg t).discard) _

/-- The job phase of a fresh bean; its number of calls depends on the bean's list. -/
theorem registerJobDetails_calls :
    ((registerJobDetails cfg).start cfg.freshBean).CallsAtMost (2 * cfg.jobList.length) := by
  unfold registerJobDetails
  rw [Body.start_bind, Body.start_get, Program.ret_bind]
  cases hj : cfg.jobDetails with
  | none =>
    simp only [BeanConfig.freshBean, hj]
    exact trivial
  | some jobDetails =>
    simp only [BeanConfig.freshBean, BeanConfig.jobList, hj, Option.getD_some]
    rw [Nat.mul_comm]
    exact Body.CallsAtMost.forM (fun j => (addJobToScheduler_calls cfg (some j)).discard)
      jobDetails _

/-- A registration without XML files and transaction manager makes boundedly many calls. -/
theorem registerJobsAndTriggers_calls (hm : cfg.transactionManager = false)
    (hfiles : cfg.jobSchedulingDataLocations = none) :
    ((registerJobsAndTriggers cfg).start cfg.freshBean).CallsAtMost (callBound cfg) := by
  have hrest : ((registerCalendars cfg) >>= fun _ => registerTriggers cfg).CallsAtMost
      (cfg.calendarMap.entries.length + 5 * cfg.triggerList.length) :=
    (registerCalendars_calls cfg).bind fun _ => registerTriggers_calls cfg
  have hall : ((registerAll cfg).start cfg.freshBean).CallsAtMost (callBound cfg) := by
    unfold registerAll processDataLocations
    rw [hfiles]
    change ((pure PUnit.unit >>= _ : BeanM Unit).start _).CallsAtMost _
    rw [pure_bind, Body.start_bind]
    refine (registerJobDetails_calls cfg).bind fun r => ?_
    cases r.1 with
    | ok u => exact hrest r.2
    | error ex => trivial
  unfold registerJobsAndTriggers ifTransactional
  simp only [hm, Bool.false_eq_true, if_false, pure_bind]
  rw [Body.start_bind, Body.start_tryCatch]
  refine (hall.bind (n := 0) fun r => ?_).bind (n := 0) fun r => ?_
  · cases r.1 with
    | ok u => trivial
    | error ex =>
      unfold abandonRegistration ifTransactional
      simp only [hm, Bool.false_eq_true, if_false, pure_bind]
      trivial
  · cases r.1 with
    | ok u => trivial
    | error ex => trivial

end CallBound

namespace Registering

variable {ι : Type} {N : Registering ι} {added : List JobDetail}

/-- A registration that cannot stop completes. -/
theorem registerJobsAndTriggers_completes (hm : N.cfg.transactionManager = false)
    (hfiles : N.cfg.jobSchedulingDataLocations = none) {b₀ : Bean}
    (hb : BeanList N.cfg N.initial added b₀) (hfault : ¬N.fault)
    (hsch : Schedulable N.cfg N.initial N.cfg.triggerList) :
    N.Spec (fun b s => b = b₀ ∧ N.Untouched s) (registerJobsAndTriggers N.cfg)
      (fun _ b s => N.Completed added b s) fun _ _ _ => False := by
  unfold registerJobsAndTriggers ifTransactional
  simp only [hm, Bool.false_eq_true, if_false, pure_bind]
  refine Spec.bind (q := fun _ b s => N.Completed added b s)
    ((registerAll_completes hfiles hb).tryCatch fun ex => ?_) fun _ => ?_
  · exact Spec.of_false fun b s _ h => h.2.elim hfault fun hn => hn hsch
  · exact Spec.pure settled_completed fun _ _ _ h => h

end Registering

section Cluster

variable (processFile : DataProcessor) (cfg : BeanConfig) (s₀ : Store) {ι : Type}

/-- Fresh beans of one configuration, all about to register on the store `s₀`. -/
def cluster (ι : Type) : Pool quartz ι (Except Throwable Unit × Bean) SchedulerState where
  node _ := (registerJobsAndTriggers cfg).start cfg.freshBean
  store := ⟨s₀, none⟩

/-- What node `i` of the cluster does. -/
def clusterNode (i : ι) : Registering ι where
  processFile := processFile
  cfg := cfg
  initial := s₀
  base := s₀
  base_between := between_refl
  node := i
  fault := False

variable {processFile cfg s₀}

/-- What one node guarantees, the others may rely on. -/
theorem clusterNode_rely {i j : ι} (hij : i ≠ j) (s t : Tracked ι)
    (h : (clusterNode processFile cfg s₀ i).contract.guarantee s t) :
    (clusterNode processFile cfg s₀ j).contract.rely s t := by
  rintro ⟨hjobs, htriggers, hbetween⟩
  obtain ⟨ht, hl⟩ := h ⟨hjobs, htriggers, hbetween⟩
  obtain ⟨hj, htr, hc⟩ := hl j hij.symm
  exact ⟨⟨ht.jobs, ht.triggers, ht.between⟩, hj, htr, hc⟩

section

variable [DecidableEq ι] (hm : cfg.transactionManager = false)
  (hfiles : cfg.jobSchedulingDataLocations = none) (hsch : Schedulable cfg s₀ cfg.triggerList)

include hm hfiles hsch

/-- In every schedule every node keeps its contract: whatever calls the others make between
its own, it is on its way to completing. -/
theorem cluster_sound (processFile : DataProcessor) (schedule : List ι) :
    ((cluster cfg s₀ ι).run (exec processFile) schedule).Sound
      (fun i => (clusterNode processFile cfg s₀ i).contract) (fun x s => x.store = s.store)
      fun i out s => (clusterNode processFile cfg s₀ i).UnderWay s ∧
        ∃ b, out = (.ok (), b) ∧ (clusterNode processFile cfg s₀ i).Completed [] b s := by
  refine Pool.Sound.run (Γ := fun i : ι => (clusterNode processFile cfg s₀ i).contract)
    (P := cluster cfg s₀ ι) (fun i => Registering.covers_exec)
    (fun i j hij => clusterNode_rely hij) ⟨.start s₀, rfl, fun i => ?_⟩ schedule
  refine (Registering.registerJobsAndTriggers_completes (N := clusterNode processFile cfg s₀ i)
    hm hfiles beanList_fresh (fun h => h) hsch cfg.freshBean (.start s₀)
    ⟨.start, rfl, Registering.untouched_start _⟩).mono ?_
  rintro ⟨ex | u, b⟩ s h
  · exact h.2.elim
  · exact ⟨h.1, b, rfl, h.2⟩

/-- A node that has ended has completed. -/
theorem cluster_ended {schedule : List ι} {i : ι} {out : Except Throwable Unit × Bean}
    (hi : ((cluster cfg s₀ ι).run (exec processFile) schedule).node i = .ret out) :
    ∃ b, out = (.ok (), b) := by
  obtain ⟨s, _, hmeets⟩ := cluster_sound hm hfiles hsch processFile schedule
  obtain ⟨_, b, rfl, _⟩ := Pool.Sound.post hmeets hi
  exact ⟨b, rfl⟩

/-- When all have ended, the scheduler holds the expected store. -/
theorem cluster_store [Nonempty ι] {schedule : List ι}
    (hall : ∀ i, ∃ out, ((cluster cfg s₀ ι).run (exec processFile) schedule).node i = .ret out) :
    ((cluster cfg s₀ ι).run (exec processFile) schedule).store.store = expectedStore cfg s₀ := by
  obtain ⟨s, hs, hmeets⟩ := cluster_sound hm hfiles hsch processFile schedule
  have hdone : ∀ i, ∃ b, (clusterNode processFile cfg s₀ i).Completed [] b s := by
    intro i
    obtain ⟨out, hi⟩ := hall i
    obtain ⟨_, b, _, hc⟩ := Pool.Sound.post hmeets hi
    exact ⟨b, hc⟩
  obtain ⟨i⟩ := ‹Nonempty ι›
  obtain ⟨out, hi⟩ := hall i
  obtain ⟨hunder, b, _, hc⟩ := Pool.Sound.post hmeets hi
  have hjobs : s.jobs.value = expectedJob cfg s₀ :=
    hunder.jobs.value_eq (fun k j hk => (hdone j).choose_spec.jobs k hk) hc.jobs_rest
  have htriggers : s.triggers.value = expectedTrigger cfg s₀ :=
    hunder.triggers.value_eq (fun k j hk => (hdone j).choose_spec.triggers k hk) hc.triggers_rest
  exact hs.trans (Store.ext hjobs htriggers (funext hc.calendars))

end

/-- Clustered registration converges. If a registration alone completes, then in every
interleaving of the calls of any number of nodes no node fails, every node has returned
normally after `callBound cfg` turns of its own, and when all have, the scheduler holds what
the registration alone leaves. -/
theorem cluster_converges (processFile : DataProcessor) (cfg : BeanConfig)
    (hm : cfg.transactionManager = false) (hfiles : cfg.jobSchedulingDataLocations = none)
    (s₀ : Store) (hok : (registerAlone processFile cfg s₀).1.1 = .ok ())
    {ι : Type} [DecidableEq ι] (schedule : List ι) :
    (∀ i ex b, ((cluster cfg s₀ ι).run (exec processFile) schedule).node i ≠
        .ret (.error ex, b)) ∧
    (∀ i, callBound cfg ≤ schedule.count i →
      ∃ b, ((cluster cfg s₀ ι).run (exec processFile) schedule).node i = .ret (.ok (), b)) ∧
    (Nonempty ι →
      (∀ i, ∃ out, ((cluster cfg s₀ ι).run (exec processFile) schedule).node i = .ret out) →
      ((cluster cfg s₀ ι).run (exec processFile) schedule).store.store =
        (registerAlone processFile cfg s₀).2.store) := by
  have hsch : Schedulable cfg s₀ cfg.triggerList :=
    (registerAlone_ok_iff processFile s₀ hfiles).mp hok
  refine ⟨fun i ex b hi => ?_, fun i hturns => ?_, fun _ hall => ?_⟩
  · obtain ⟨b', h⟩ := cluster_ended hm hfiles hsch hi
    cases h
  · obtain ⟨out, hi⟩ := Pool.run_node_ended (exec processFile) (P := cluster cfg s₀ ι)
      (registerJobsAndTriggers_calls cfg hm hfiles) hturns
    obtain ⟨b, rfl⟩ := cluster_ended hm hfiles hsch hi
    exact ⟨b, hi⟩
  · rw [cluster_store hm hfiles hsch hall, registerAlone_store processFile s₀ hfiles hok]

/-- Two nodes that take turns, one call at a time, for as long as they need. -/
def takingTurns : List (Fin 2) := (List.replicate (callBound (duplicates true)) [0, 1]).flatten

/-- Two nodes that overwrite the duplicates in turns leave what one of them leaves alone. -/
theorem takingTurns_converge :
    ((cluster (duplicates true) Store.empty (Fin 2)).run (exec fun _ s => (.ok (), s))
      takingTurns).store.store =
      (registerAlone (fun _ s => (.ok (), s)) (duplicates true) Store.empty).2.store :=
  (cluster_converges _ (duplicates true) rfl rfl Store.empty rfl takingTurns).2.2 ⟨0⟩ fun i =>
    ⟨_, ((cluster_converges _ (duplicates true) rfl rfl Store.empty rfl takingTurns).2.1 i
      (by revert i; decide)).choose_spec⟩

end Cluster

end MySchedule.Registration
