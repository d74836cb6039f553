import MySchedule.Registration.Overwriting
import MySchedule.Registration.Preserving
import MySchedule.Registration.Transaction
import MySchedule.Registration.Quartz18

/-!
# A registration on its own

A registration that nobody interferes with completes exactly when no trigger
makes its turn fail, and then leaves the expected store, in either mode, with or
without a transaction manager, and in either copy of the factory bean.
-/

namespace MySchedule.Registration

open Interaction Java Keyed

namespace Registering

variable {ι τ : Type} {N : Registering ι} {added : List JobDetail}

/-- All phases without XML files, in either mode. -/
theorem registerAll_completes (hfiles : N.cfg.jobSchedulingDataLocations = none) {b₀ : Bean}
    (hb : BeanList N.cfg N.initial added b₀) :
    N.Spec (fun b s => b = b₀ ∧ N.Untouched s) (registerAll N.cfg)
      (fun _ b s => N.Completed added b s) N.Stopped := by
  cases ho : N.cfg.overwriteExistingJobs with
  | true => exact Overwriting.registerAll_spec ho hfiles hb
  | false => exact Preserving.registerAll_spec ho hfiles hb

/-- The scheduler answers as every contract allows. -/
theorem covers_exec : N.contract.Covers (exec N.processFile) fun x s => x.store = s.store := by
  intro c x s hx
  by_cases hc : c.onScheduler = true
  · obtain ⟨hr, hstore⟩ := s.store_after N.processFile N.node hc x hx
    rw [← hr] at hstore
    exact ⟨_, fun _ => Or.inl ⟨hr, rfl⟩, hstore⟩
  · exact ⟨.start (exec N.processFile c x).2.store, fun h => absurd h hc, rfl⟩

/-- A run of a node alone, in surroundings that keep to its contract. -/
theorem registerAll_alone (hfiles : N.cfg.jobSchedulingDataLocations = none) {b : Bean}
    (hb : BeanList N.cfg N.initial added b) {h : Handler quartz τ} {R : τ → Tracked ι → Prop}
    (hcov : N.contract.Covers h R) {x : τ} (hx : R x (.start N.base)) {r : Except Throwable Unit}
    {b' : Bean} {y : τ} (hrun : Body.runWith h (registerAll N.cfg) b x = ((r, b'), y)) :
    ∃ s, R y s ∧ N.UnderWay s ∧
      match r with
      | .ok _ => N.Completed added b' s
      | .error ex => N.Stopped ex b' s := by
  obtain ⟨s, hs, hout⟩ := (registerAll_completes hfiles hb).runWith hcov hx
    ⟨.start, rfl, untouched_start _⟩
  rw [hrun] at hs hout
  cases r with
  | ok u => exact ⟨s, hs, hout⟩
  | error ex => exact ⟨s, hs, hout⟩

/-- When nobody else writes, a completed registration has left the expected store. -/
theorem Completed.store_eq {b : Bean} {s : Tracked ι} (h : N.Completed added b s)
    (hs : N.UnderWay s) (halone : ∀ i, i = N.node) : s.store = expectedStore N.cfg N.initial := by
  have hjobs : s.jobs.value = expectedJob N.cfg N.initial :=
    hs.jobs.value_eq (fun k i hk => h.jobs k (halone i ▸ hk)) h.jobs_rest
  have htriggers : s.triggers.value = expectedTrigger N.cfg N.initial :=
    hs.triggers.value_eq (fun k i hk => h.triggers k (halone i ▸ hk)) h.triggers_rest
  exact Store.ext hjobs htriggers (funext h.calendars)

end Registering

section

variable (processFile : DataProcessor) (cfg : BeanConfig) (s₀ : Store)

/-- A registration on the store `s₀`, by a fresh bean and with nobody else. -/
def registerAlone : (Except Throwable Unit × Bean) × SchedulerState :=
  Body.runWith (exec processFile) (registerJobsAndTriggers cfg) cfg.freshBean ⟨s₀, none⟩

/-- What a node does in such a registration. -/
def firstRegistration : Registering Unit where
  processFile := processFile
  cfg := cfg
  initial := s₀
  base := s₀
  base_between := between_refl
  node := ()
  fault := False

/-- A registration on its own ends as what is inside its `try` does; one that throws in a
transaction leaves the store as it was. -/
theorem registerAlone_course : ∃ savepoint r b' y,
    Body.runWith (exec processFile) (registerAll cfg) cfg.freshBean ⟨s₀, savepoint⟩ =
      ((r, b'), y) ∧
    match r with
    | .ok _ => (registerAlone processFile cfg s₀).1.1 = .ok () ∧
      (registerAlone processFile cfg s₀).2.store = y.store
    | .error _ => (∃ ex, (registerAlone processFile cfg s₀).1.1 = .error ex) ∧
      (registerAlone processFile cfg s₀).2.store =
        if cfg.transactionManager then s₀ else y.store := by
  unfold registerAlone
  cases hm : cfg.transactionManager with
  | false =>
    obtain ⟨r, b', y, hrun⟩ : ∃ r b' y, Body.runWith (exec processFile) (registerAll cfg)
        cfg.freshBean ⟨s₀, none⟩ = ((r, b'), y) := ⟨_, _, _, rfl⟩
    refine ⟨none, r, b', y, hrun, ?_⟩
    cases r with
    | ok u =>
      rw [run_unmanaged_ok hm hrun]
      exact ⟨rfl, rfl⟩
    | error ex =>
      rw [run_unmanaged_error hm hrun]
      exact ⟨⟨_, rfl⟩, rfl⟩
  | true =>
    have ho : exec processFile .getTransaction ⟨s₀, none⟩ = (.ok (), ⟨s₀, some s₀⟩) := rfl
    obtain ⟨r, b', y, hrun⟩ : ∃ r b' y, Body.runWith (exec processFile) (registerAll cfg)
        cfg.freshBean ⟨s₀, some s₀⟩ = ((r, b'), y) := ⟨_, _, _, rfl⟩
    refine ⟨some s₀, r, b', y, hrun, ?_⟩
    cases r with
    | ok u =>
      rw [run_managed_ok hm ho hrun]
      exact ⟨rfl, rfl⟩
    | error ex =>
      have hsave : (Body.runWith (exec processFile) (registerAll cfg) cfg.freshBean
          ⟨s₀, some s₀⟩).2.savepoint = some s₀ :=
        registerAll_keeps (I := fun x => x.savepoint = some s₀)
          (fun c x hc hx => (exec_savepoint hc x).trans hx) rfl
      rw [hrun] at hsave
      rw [run_managed_error hm ho hrun]
      refine ⟨⟨_, rfl⟩, ?_⟩
      change y.savepoint.getD y.store = s₀
      rw [hsave, Option.getD_some]

variable {cfg} (hfiles : cfg.jobSchedulingDataLocations = none)

include hfiles

/-- What is inside the `try` goes through exactly when no trigger makes its turn fail, and
then it leaves the expected store. -/
theorem registerAll_alone_result {x y : SchedulerState} (hx : x.store = s₀)
    {r : Except Throwable Unit} {b' : Bean}
    (hrun : Body.runWith (exec processFile) (registerAll cfg) cfg.freshBean x = ((r, b'), y)) :
    (r = .ok () ∧ Schedulable cfg s₀ cfg.triggerList ∧ y.store = expectedStore cfg s₀) ∨
      ((∃ ex, r = .error ex) ∧ ¬Schedulable cfg s₀ cfg.triggerList) := by
  obtain ⟨s, hs, hunder, hend⟩ := Registering.registerAll_alone
    (N := firstRegistration processFile cfg s₀) hfiles beanList_fresh Registering.covers_exec hx
    hrun
  cases r with
  | ok u =>
    exact Or.inl ⟨rfl, hend.schedulable ⟨fun _ => rfl, rfl, rfl⟩,
      hs.trans (hend.store_eq hunder fun _ => rfl)⟩
  | error ex => exact Or.inr ⟨⟨ex, rfl⟩, hend.2.resolve_left fun h => h⟩

/-- A registration alone either completes, and leaves the expected store, or a trigger made
its turn fail. -/
theorem registerAlone_result :
    ((registerAlone processFile cfg s₀).1.1 = .ok () ∧ Schedulable cfg s₀ cfg.triggerList ∧
      (registerAlone processFile cfg s₀).2.store = expectedStore cfg s₀) ∨
    ((∃ ex, (registerAlone processFile cfg s₀).1.1 = .error ex) ∧
      ¬Schedulable cfg s₀ cfg.triggerList) := by
  obtain ⟨savepoint, r, b', y, hrun, hend⟩ := registerAlone_course processFile cfg s₀
  rcases registerAll_alone_result processFile s₀ hfiles rfl hrun with
    ⟨rfl, hsch, hy⟩ | ⟨⟨ex, rfl⟩, hsch⟩
  · exact Or.inl ⟨hend.1, hsch, hend.2.trans hy⟩
  · exact Or.inr ⟨hend.1, hsch⟩

/-- A registration alone completes exactly when no trigger makes its turn fail. -/
theorem registerAlone_ok_iff :
    (registerAlone processFile cfg s₀).1.1 = .ok () ↔ Schedulable cfg s₀ cfg.triggerList := by
  rcases registerAlone_result processFile s₀ hfiles with ⟨hok, hsch, _⟩ | ⟨⟨ex, hex⟩, hsch⟩
  · exact ⟨fun _ => hsch, fun _ => hok⟩
  · refine ⟨fun hok => ?_, fun h => absurd h hsch⟩
    rw [hex] at hok
    cases hok

theorem registerAlone_store (hok : (registerAlone processFile cfg s₀).1.1 = .ok ()) :
    (registerAlone processFile cfg s₀).2.store = expectedStore cfg s₀ := by
  rcases registerAlone_result processFile s₀ hfiles with ⟨_, _, hstore⟩ | ⟨⟨ex, hex⟩, _⟩
  · exact hstore
  · rw [hex] at hok
    cases hok

end

/-- The final store of a registration is exactly determined: when no call fails, it ends
normally, and whenever it does, it has left the expected store, for both copies of the factory
bean. -/
theorem registration_final_store (processFile : DataProcessor) (cfg : BeanConfig)
    (hfiles : cfg.jobSchedulingDataLocations = none) (s₀ : Store) (register : BeanM Unit)
    (hcopy : register ∈ [registerJobsAndTriggers cfg, Quartz18.registerJobsAndTriggers cfg]) :
    ((∀ e ∈ Body.calls (exec processFile) register cfg.freshBean ⟨s₀, none⟩,
        e.answer.isOk = true) →
      (Body.runWith (exec processFile) register cfg.freshBean ⟨s₀, none⟩).1.1 = .ok () ∧
        (Body.runWith (exec processFile) register cfg.freshBean ⟨s₀, none⟩).2.store =
          expectedStore cfg s₀) ∧
    ((Body.runWith (exec processFile) register cfg.freshBean ⟨s₀, none⟩).1.1 = .ok () →
      (Body.runWith (exec processFile) register cfg.freshBean ⟨s₀, none⟩).2.store =
        expectedStore cfg s₀) := by
  rw [Quartz18.registerJobsAndTriggers_eq] at hcopy
  obtain rfl : register = registerJobsAndTriggers cfg := by simpa using hcopy
  have hstore := registerAlone_store processFile s₀ hfiles
  exact ⟨fun hcalls => ⟨ok_of_no_call_fails hcalls, hstore (ok_of_no_call_fails hcalls)⟩, hstore⟩

/-- Two configured definitions of one job, a trigger that brings its own, and another
definition of that trigger. -/
def duplicates (overwrite : Bool) : BeanConfig where
  transactionManager := false
  overwriteExistingJobs := overwrite
  jobSchedulingDataLocations := none
  jobDetails := some [⟨⟨"load", "nightly"⟩, "v1"⟩, ⟨⟨"load", "nightly"⟩, "v2"⟩]
  calendars := none
  triggers := some
    [⟨⟨"at noon", "nightly"⟩, ⟨"sweep", "nightly"⟩,
        .jobDetailAware (some ⟨⟨"sweep", "nightly"⟩, "carried"⟩), "12:00"⟩,
      ⟨⟨"at noon", "nightly"⟩, ⟨"load", "nightly"⟩, .plain, "12:30"⟩]

/-- What the duplicates leave, overwritten and kept. -/
theorem duplicates_final_store :
    (registerAlone (fun _ s => (.ok (), s)) (duplicates true) Store.empty).2.store =
        expectedStore (duplicates true) Store.empty ∧
      (registerAlone (fun _ s => (.ok (), s)) (duplicates false) Store.empty).2.store =
        expectedStore (duplicates false) Store.empty :=
  ⟨((registration_final_store _ (duplicates true) rfl Store.empty _ (by simp)).1 (by decide)).2,
    ((registration_final_store _ (duplicates false) rfl Store.empty _ (by simp)).1 (by decide)).2⟩

end MySchedule.Registration
