import MySchedule.Registration.SingleRun

/-!
# Retried registrations

Registrations of one configuration, one after the other, by beans that may have
tried before. Any of them may be made to fail at a call, which then has no
effect, and what it did before is kept or rolled back; what it added to its
bean's list is kept either way. Between attempts the store is on its way to the
expected one and every bean's list holds, besides the configured jobs, only
carried ones that the store is meant to hold, so an attempt that is left alone
completes and leaves the expected store.
-/

namespace MySchedule.Registration

open Interaction Java Keyed

/-- One attempt: the bean that makes it, whether a transaction manager is set, and at which
of its scheduler calls it is made to fail, with which exception. -/
structure Attempt where
  bean : ℕ
  managed : Bool
  abort : Option (ℕ × Throwable)

/-- The exception that scheduler call number `n` is made to fail with, if it is. An exception
that the bean handles itself would abort nothing and is not injected. -/
def injected (abort : Option (ℕ × Throwable)) (n : ℕ) (c : SchedulerCall) : Option Throwable :=
  match abort with
  | none => none
  | some (k, ex) => if c.onScheduler ∧ n = k ∧ c.handles ex = false then some ex else none

/-- The scheduler, with one of its calls made to fail without effect. -/
def faulty (processFile : DataProcessor) (abort : Option (ℕ × Throwable)) :
    Handler quartz (SchedulerState × ℕ) := fun c x =>
  match injected abort x.2 c with
  | some ex => (.error ex, (x.1, x.2 + 1))
  | none => ((exec processFile c x.1).1,
      ((exec processFile c x.1).2, if c.onScheduler then x.2 + 1 else x.2))

/-- The store between attempts, and the state of every bean. -/
structure Attempts where
  store : Store
  beans : ℕ → Bean

/-- Nobody has tried yet; every bean is fresh. -/
def Attempts.start (cfg : BeanConfig) (s₀ : Store) : Attempts := ⟨s₀, fun _ => cfg.freshBean⟩

section

variable (processFile : DataProcessor) (cfg : BeanConfig)

/-- Make an attempt. -/
def attempt (w : Attempts) (a : Attempt) : Except Throwable Unit × Attempts :=
  let out := Body.runWith (faulty processFile a.abort)
    (registerJobsAndTriggers { cfg with transactionManager := a.managed }) (w.beans a.bean)
    (⟨w.store, none⟩, 0)
  (out.1.1, ⟨out.2.1.store, Function.update w.beans a.bean out.1.2⟩)

/-- Make attempts one after the other. -/
def attempts (w : Attempts) (as : List Attempt) : Attempts :=
  as.foldl (fun w a => (attempt processFile cfg w a).2) w

/-- What holds between attempts. -/
structure Recoverable (s₀ : Store) (w : Attempts) : Prop where
  between : Between cfg s₀ w.store
  beans : ∀ i, BeanOk cfg s₀ (w.beans i)

variable {processFile cfg} {s₀ : Store}

theorem recoverable_start : Recoverable cfg s₀ (.start cfg s₀) :=
  ⟨between_refl, fun _ => ⟨[], beanList_fresh⟩⟩

/-- What an attempt does as a node of its own. -/
def retry (processFile : DataProcessor) (cfg : BeanConfig) (s₀ base : Store)
    (hbase : Between cfg s₀ base) (abort : Option (ℕ × Throwable)) : Registering Unit where
  processFile := processFile
  cfg := cfg
  initial := s₀
  base := base
  base_between := hbase
  node := ()
  fault := abort ≠ none

theorem injected_some {abort : Option (ℕ × Throwable)} {n : ℕ} {c : SchedulerCall}
    {ex : Throwable} (h : injected abort n c = some ex) :
    c.onScheduler = true ∧ c.handles ex = false ∧ abort ≠ none := by
  unfold injected at h
  cases habort : abort with
  | none =>
    rw [habort] at h
    cases h
  | some a =>
    obtain ⟨k, ex'⟩ := a
    rw [habort] at h
    simp only [Option.ite_none_right_eq_some, Option.some.injEq] at h
    obtain ⟨⟨hc, _, hh⟩, rfl⟩ := h
    exact ⟨hc, hh, by simp⟩

/-- The calls on the transaction are never made to fail. -/
theorem injected_transaction (abort : Option (ℕ × Throwable)) (n : ℕ) {c : SchedulerCall}
    (hc : c.onScheduler = false) : injected abort n c = none := by
  cases h : injected abort n c with
  | none => rfl
  | some ex =>
    rw [(injected_some h).1] at hc
    cases hc

/-- A scheduler with one failing call answers as the contract of such a node allows. -/
theorem covers_faulty {base : Store} {hbase : Between cfg s₀ base}
    {abort : Option (ℕ × Throwable)} :
    (retry processFile cfg s₀ base hbase abort).contract.Covers (faulty processFile abort)
      fun x s => x.1.store = s.store := by
  rintro c ⟨x, n⟩ s hx
  unfold faulty
  cases hi : injected abort n c with
  | some ex =>
    obtain ⟨_, hh, habort⟩ := injected_some hi
    exact ⟨s, fun _ => Or.inr ⟨habort, ex, hh, rfl, rfl⟩, hx⟩
  | none => exact Registering.covers_exec c x s hx

/-- Steps leave the savepoint alone, failing or not. -/
theorem faulty_savepoint {abort : Option (ℕ × Throwable)} {sp : Option Store} (c : SchedulerCall)
    (x : SchedulerState × ℕ) (hc : c.isStep = true) (hx : x.1.savepoint = sp) :
    (faulty processFile abort c x).2.1.savepoint = sp := by
  unfold faulty
  cases injected abort x.2 c with
  | some ex => exact hx
  | none => exact (exec_savepoint hc x.1).trans hx

/-- What an attempt's `try` leaves, kept or not: the store is on its way to the expected one,
which it reaches when the `try` goes through; and it does when nothing is made to fail. -/
theorem registerAll_retried (hfiles : cfg.jobSchedulingDataLocations = none)
    (hsch : Schedulable cfg s₀ cfg.triggerList) {base : Store} (hbase : Between cfg s₀ base)
    {abort : Option (ℕ × Throwable)} {b b' : Bean} (hb : BeanOk cfg s₀ b)
    {x y : SchedulerState × ℕ} (hx : x.1.store = base) {r : Except Throwable Unit}
    (hrun : Body.runWith (faulty processFile abort) (registerAll cfg) b x = ((r, b'), y)) :
    BeanOk cfg s₀ b' ∧ Between cfg s₀ y.1.store ∧ y.1.savepoint = x.1.savepoint ∧
      (r = .ok () → y.1.store = expectedStore cfg s₀) ∧ (abort = none → r = .ok ()) := by
  obtain ⟨added, hlist⟩ := hb
  have hsave : y.1.savepoint = x.1.savepoint := by
    have h : (Body.runWith (faulty processFile abort) (registerAll cfg) b x).2.1.savepoint =
        x.1.savepoint :=
      registerAll_keeps (I := fun y : SchedulerState × ℕ => y.1.savepoint = x.1.savepoint)
        faulty_savepoint rfl
    rwa [hrun] at h
  obtain ⟨s, hs, hunder, hend⟩ := Registering.registerAll_alone
    (N := retry processFile cfg s₀ base hbase abort) hfiles hlist covers_faulty hx hrun
  have hbetween : Between cfg s₀ y.1.store := hs ▸ hunder.between
  cases r with
  | ok u =>
    have hstore : y.1.store = expectedStore cfg s₀ := hs.trans (hend.store_eq hunder fun _ => rfl)
    exact ⟨hend.bean, hbetween, hsave, fun _ => hstore, fun _ => rfl⟩
  | error ex =>
    refine ⟨hend.1, hbetween, hsave, fun h => ?_, fun h => ?_⟩
    · cases h
    · exact absurd h (hend.2.resolve_right fun hn => hn hsch)

theorem faulty_transaction {abort : Option (ℕ × Throwable)} {c : SchedulerCall}
    (hc : c.onScheduler = false) (x : SchedulerState × ℕ) :
    faulty processFile abort c x =
      ((exec processFile c x.1).1, ((exec processFile c x.1).2, x.2)) := by
  simp only [faulty, injected_transaction abort x.2 hc, hc, Bool.false_eq_true, if_false]

/-- What a whole attempt leaves, with or without a transaction manager. -/
theorem registration_retried (hfiles : cfg.jobSchedulingDataLocations = none)
    (hsch : Schedulable cfg s₀ cfg.triggerList) {base : Store} (hbase : Between cfg s₀ base)
    {abort : Option (ℕ × Throwable)} {b b' : Bean} (hb : BeanOk cfg s₀ b) {managed : Bool}
    {y : SchedulerState × ℕ} {r : Except Throwable Unit}
    (hrun : Body.runWith (faulty processFile abort)
      (registerJobsAndTriggers { cfg with transactionManager := managed }) b (⟨base, none⟩, 0) =
        ((r, b'), y)) :
    BeanOk cfg s₀ b' ∧ Between cfg s₀ y.1.store ∧
      (abort = none → r = .ok () ∧ y.1.store = expectedStore cfg s₀) := by
  cases managed with
  | false =>
    obtain ⟨r', b'', z, htry⟩ : ∃ r' b'' z, Body.runWith (faulty processFile abort)
        (registerAll { cfg with transactionManager := false }) b (⟨base, none⟩, 0) =
          ((r', b''), z) := ⟨_, _, _, rfl⟩
    obtain ⟨hb', hbetween, _, hstore, hok⟩ := registerAll_retried hfiles hsch hbase hb rfl htry
    cases r' with
    | ok u =>
      rw [run_unmanaged_ok rfl htry] at hrun
      cases hrun
      exact ⟨hb', hbetween, fun _ => ⟨rfl, hstore rfl⟩⟩
    | error ex =>
      rw [run_unmanaged_error rfl htry] at hrun
      cases hrun
      exact ⟨hb', hbetween, fun h => nomatch hok h⟩
  | true =>
    have ho : faulty processFile abort .getTransaction (⟨base, none⟩, 0) =
        (.ok (), (⟨base, some base⟩, 0)) := faulty_transaction rfl _
    obtain ⟨r', b'', z, htry⟩ : ∃ r' b'' z, Body.runWith (faulty processFile abort)
        (registerAll { cfg with transactionManager := true }) b (⟨base, some base⟩, 0) =
          ((r', b''), z) := ⟨_, _, _, rfl⟩
    obtain ⟨hb', hbetween, hsave, hstore, hok⟩ := registerAll_retried hfiles hsch hbase hb rfl htry
    cases r' with
    | ok u =>
      rw [run_managed_ok rfl ho htry, faulty_transaction rfl] at hrun
      cases hrun
      exact ⟨hb', hbetween, fun _ => ⟨rfl, hstore rfl⟩⟩
    | error ex =>
      rw [run_managed_error rfl ho htry, faulty_transaction rfl] at hrun
      cases hrun
      refine ⟨hb', ?_, fun h => nomatch hok h⟩
      -- the rollback restores the store the attempt began on
      simpa only [exec, hsave, Option.getD_some] using hbase

/-- One attempt keeps what holds between attempts, and completes when it is left alone. -/
theorem attempt_result (hfiles : cfg.jobSchedulingDataLocations = none)
    (hsch : Schedulable cfg s₀ cfg.triggerList) {w : Attempts} (hw : Recoverable cfg s₀ w)
    (a : Attempt) :
    Recoverable cfg s₀ (attempt processFile cfg w a).2 ∧
      (a.abort = none → (attempt processFile cfg w a).1 = .ok () ∧
        (attempt processFile cfg w a).2.store = expectedStore cfg s₀) := by
  have hrun : Body.runWith (faulty processFile a.abort)
      (registerJobsAndTriggers { cfg with transactionManager := a.managed }) (w.beans a.bean)
      (⟨w.store, none⟩, 0) = ((_, _), _) := rfl
  obtain ⟨hb, hbetween, hdone⟩ := registration_retried hfiles hsch hw.between (hw.beans _) hrun
  refine ⟨⟨hbetween, fun i => ?_⟩, hdone⟩
  by_cases hi : i = a.bean
  · subst hi
    simp only [attempt, Function.update_self]
    exact hb
  · simp only [attempt, Function.update_of_ne hi]
    exact hw.beans i

/-- Any number of attempts. -/
theorem attempts_recoverable (hfiles : cfg.jobSchedulingDataLocations = none)
    (hsch : Schedulable cfg s₀ cfg.triggerList) {w : Attempts} (hw : Recoverable cfg s₀ w)
    (as : List Attempt) : Recoverable cfg s₀ (attempts processFile cfg w as) := by
  induction as generalizing w with
  | nil => exact hw
  | cons a as ih => exact ih (attempt_result hfiles hsch hw a).1

end

/-- Registration is idempotent and recovers from any failed attempts: after any attempts, by
any beans of the configuration, whichever calls failed and whether their effects were kept or
rolled back, an attempt that is left alone completes and leaves the store that a registration
alone leaves. -/
theorem registration_recovers (processFile : DataProcessor) (cfg : BeanConfig)
    (hfiles : cfg.jobSchedulingDataLocations = none) (s₀ : Store)
    (hok : (registerAlone processFile cfg s₀).1.1 = .ok ()) (earlier : List Attempt)
    (last : Attempt) (hlast : last.abort = none) :
    let w := attempts processFile cfg (.start cfg s₀) earlier
    (attempt processFile cfg w last).1 = .ok () ∧
      (attempt processFile cfg w last).2.store = (registerAlone processFile cfg s₀).2.store := by
  have hsch : Schedulable cfg s₀ cfg.triggerList :=
    (registerAlone_ok_iff processFile s₀ hfiles).mp hok
  have hw : Recoverable cfg s₀ (attempts processFile cfg (.start cfg s₀) earlier) :=
    attempts_recoverable hfiles hsch recoverable_start earlier
  rw [registerAlone_store processFile s₀ hfiles hok]
  exact (attempt_result hfiles hsch hw last).2 hlast

/-- A bean that is cut off after its carried job was added, with and without a rollback, and
then another bean; last the first one again, alone. -/
theorem duplicates_recover :
    let w := attempts (fun _ s => (.ok (), s)) (duplicates false) (.start (duplicates false) .empty)
      [⟨0, true, some (6, .plain (.runtimeException "IllegalStateException") none)⟩,
        ⟨0, false, some (4, .plain (.error "OutOfMemoryError") none)⟩,
        ⟨1, true, some (2, jobDoesNotExist)⟩]
    (attempt (fun _ s => (.ok (), s)) (duplicates false) w ⟨0, false, none⟩).1 = .ok () ∧
      (attempt (fun _ s => (.ok (), s)) (duplicates false) w ⟨0, false, none⟩).2.store =
        (registerAlone (fun _ s => (.ok (), s)) (duplicates false) .empty).2.store :=
  registration_recovers _ (duplicates false) rfl .empty rfl _ ⟨0, false, none⟩ rfl

end MySchedule.Registration
