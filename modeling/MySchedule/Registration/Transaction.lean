import MySchedule.Registration.FactoryBean
import MySchedule.Registration.Progress
import MySchedule.Interaction.Trace

/-!
# The transaction around a registration

Whatever the calls of a registration do, it goes through without an unhandled
failure and commits, or it stops at the first such failure and rolls back. This
is a property of the registration's text: it propagates failures, and the only
one that it handles is that of a trigger that exists already.
-/

namespace MySchedule.Registration

open Interaction Java

/-- The calls on the transaction manager. -/
def SchedulerCall.onTransaction : SchedulerCall → Bool
  | .getTransaction | .commit | .rollback => true
  | _ => false

/-- The calls inside the transaction. -/
def SchedulerCall.isStep (c : SchedulerCall) : Bool := !c.onTransaction

/-- A body of the bean that propagates failures. -/
abbrev Propagating {α : Type} (p : Bean → Prop) (m : BeanM α) (q : α → Bean → Prop) : Prop :=
  Propagates SchedulerCall.isStep SchedulerCall.handles p m q

section Propagation

variable (cfg : BeanConfig)

/-- The bean's list is set. -/
def Bean.HasList (b : Bean) : Prop := b.jobDetails ≠ none

/-- `mayAddJob` lets every exception through. -/
theorem mayAddJob_propagates (p : Bean → Prop) (jobDetail : Option JobDetail) :
    Propagating p (mayAddJob cfg jobDetail) fun _ => p := by
  refine Propagates.ite (fun _ => Propagates.pure fun _ h => h) fun _ => ?_
  exact (Propagates.perform (q := fun _ => p) rfl (fun _ => rfl) fun _ _ h => h).bind
    fun _ => Propagates.pure fun _ h => h

/-- `addJobToScheduler` lets every exception through. -/
theorem addJobToScheduler_propagates (p : Bean → Prop) (jobDetail : Option JobDetail) :
    Propagating p (addJobToScheduler cfg jobDetail) fun _ => p := by
  refine (mayAddJob_propagates cfg p jobDetail).bind fun may => Propagates.ite (fun _ => ?_)
    fun _ => Propagates.pure fun _ h => h
  exact (Propagates.perform (q := fun _ => p) rfl (fun _ => rfl) fun _ _ h => h).bind
    fun _ => Propagates.pure fun _ h => h

/-- The list is there when a trigger looks into it. -/
theorem registerAwareJob_propagates (jobDetail : Option JobDetail) :
    Propagating Bean.HasList (registerAwareJob cfg jobDetail) fun _ => Bean.HasList := by
  refine Propagates.get_bind fun b => ?_
  cases hb : b.jobDetails with
  | none => exact Propagates.throw fun b' h => h.2 (by rw [h.1, hb])
  | some jobDetails =>
    refine Propagates.ite (fun _ => ?_) fun _ => Propagates.pure fun _ h => h.2
    refine (addJobToScheduler_propagates cfg _ jobDetail).bind fun added => ?_
    refine Propagates.ite (fun _ => ?_) fun _ => Propagates.pure fun _ h => h.2
    exact Propagates.set fun _ _ => by simp [Bean.HasList]

/-- Registering a trigger's job lets every exception through, once the bean has a list. -/
theorem registerJobOfTrigger_propagates (t : Trigger) :
    Propagating Bean.HasList (registerJobOfTrigger cfg t) fun _ => Bean.HasList := by
  unfold registerJobOfTrigger
  cases t.kind with
  | plain => exact Propagates.pure fun _ h => h
  | jobDetailAware jobDetail => exact registerAwareJob_propagates cfg jobDetail

/-- Replacing a trigger lets every exception through. -/
theorem rescheduleJob_propagates (p : Bean → Prop) (k : TriggerKey) (t : Trigger) :
    Propagating p (discard (Scheduler.rescheduleJob k t)) fun _ => p :=
  (Propagates.perform (q := fun _ => p) rfl (fun _ => rfl) fun _ _ h => h).discard fun _ _ h => h

/-- The trigger that exists already is the one failure that is handled. -/
theorem scheduleNewTrigger_propagates (p : Bean → Prop) (t : Trigger) :
    Propagating p (scheduleNewTrigger cfg t) fun _ => p := by
  refine Propagates.perform_caught rfl (fun _ h => h) (fun ex hex => ?_) fun ex hex => ?_
  · rw [if_pos (show ex.isObjectAlreadyExists = true from hex)]
    exact Propagates.ite (fun _ => rescheduleJob_propagates p _ t)
      fun _ => Propagates.pure fun _ h => h
  · rw [if_neg (by simpa [SchedulerCall.handles] using hex)]

/-- Storing a trigger catches no exception but the one it handles. -/
theorem storeTrigger_propagates (p : Bean → Prop) (triggerExists : Bool) (t : Trigger) :
    Propagating p (storeTrigger cfg triggerExists t) fun _ => p :=
  Propagates.ite (fun _ => scheduleNewTrigger_propagates cfg p t)
    fun _ => rescheduleJob_propagates p _ t

/-- `addTriggerToScheduler` lets through every exception it does not handle. -/
theorem addTriggerToScheduler_propagates (t : Trigger) :
    Propagating Bean.HasList (addTriggerToScheduler cfg t) fun _ => Bean.HasList := by
  refine (Propagates.perform (q := fun _ => Bean.HasList) rfl (fun _ => rfl)
    fun _ _ h => h).bind fun existing => Propagates.ite (fun _ => ?_)
      fun _ => Propagates.pure fun _ h => h
  refine (registerJobOfTrigger_propagates cfg t).bind fun _ => ?_
  exact (storeTrigger_propagates cfg Bean.HasList _ t).bind fun _ => Propagates.pure fun _ h => h

/-- The data files let every exception through. -/
theorem processDataLocations_propagates (p : Bean → Prop) :
    Propagating p (processDataLocations cfg) fun _ => p := by
  unfold processDataLocations
  cases cfg.jobSchedulingDataLocations with
  | none => exact Propagates.pure fun _ h => h
  | some locations =>
    refine (Propagates.perform (q := fun _ => p) rfl (fun _ => rfl) fun _ _ h => h).bind fun _ => ?_
    exact Propagates.forM locations fun location =>
      Propagates.perform rfl (fun _ => rfl) fun _ _ h => h

/-- The job phase leaves a list. -/
theorem registerJobDetails_propagates :
    Propagating (fun _ => True) (registerJobDetails cfg) fun _ => Bean.HasList := by
  refine Propagates.get_bind fun b => ?_
  cases hb : b.jobDetails with
  | none => exact Propagates.set fun _ _ => by simp [Bean.HasList]
  | some jobDetails =>
    refine (Propagates.forM (p := fun b' => b' = b ∧ True) jobDetails fun j =>
      (addJobToScheduler_propagates cfg _ (some j)).discard fun _ _ h => h).consequence
      (fun _ h => h) fun _ b' h => ?_
    rw [Bean.HasList, h.1, hb]
    simp

/-- The calendars let every exception through. -/
theorem registerCalendars_propagates (p : Bean → Prop) :
    Propagating p (registerCalendars cfg) fun _ => p :=
  Propagates.forM _ fun _ => Propagates.perform rfl (fun _ => rfl) fun _ _ h => h

/-- The triggers let through every exception that is not handled. -/
theorem registerTriggers_propagates :
    Propagating Bean.HasList (registerTriggers cfg) fun _ => Bean.HasList :=
  Propagates.forM _ fun t => (addTriggerToScheduler_propagates cfg t).discard fun _ _ h => h

/-- What is inside the `try` throws nothing of its own. -/
theorem registerAll_propagates :
    Propagating (fun _ => True) (registerAll cfg) fun _ => Bean.HasList :=
  (processDataLocations_propagates cfg _).bind fun _ =>
    (registerJobDetails_propagates cfg).bind fun _ =>
      (registerCalendars_propagates cfg _).bind fun _ => registerTriggers_propagates cfg

end Propagation

/-- Steps leave the savepoint alone. -/
theorem exec_savepoint {processFile : DataProcessor} {c : SchedulerCall} (hc : c.isStep = true)
    (x : SchedulerState) : (exec processFile c x).2.savepoint = x.savepoint := by
  cases c with
  | getTransaction => cases hc
  | commit => cases hc
  | rollback => cases hc
  | getJobDetail key => cases key <;> rfl
  | addJob j replace =>
    cases j with
    | none => rfl
    | some j =>
      simp only [exec]
      split <;> rfl
  | addCalendar n c replace update =>
    simp only [exec]
    split <;> rfl
  | scheduleJob t =>
    simp only [exec]
    split
    · rfl
    · split <;> rfl
  | rescheduleJob k t =>
    simp only [exec]
    split <;> rfl
  | _ => rfl

/-- What surrounds a registration when anything may fail: a call may be answered by anything
and leave any store, depending on all that went before. -/
abbrev Respond : Type :=
  List (Event quartz) → Store → (c : SchedulerCall) → Except Throwable (quartz.Answer c) × Store

/-- The state after a call, given what it left of the store: a transaction that is opened
remembers the store, and a rollback that does not throw restores it. -/
def transacted : (c : SchedulerCall) → Except Throwable (quartz.Answer c) → Store →
    SchedulerState → SchedulerState
  | .getTransaction, .ok _, _, x => ⟨x.store, some x.store⟩
  | .commit, .ok _, _, x => ⟨x.store, none⟩
  | .rollback, .ok _, _, x => ⟨x.savepoint.getD x.store, none⟩
  | _, _, s, x => ⟨s, x.savepoint⟩

/-- The surroundings, with the trace of the calls. -/
def surroundings (respond : Respond) : Handler quartz (SchedulerState × List (Event quartz)) :=
  fun c x =>
    ((respond x.2 x.1.store c).1,
      (transacted c (respond x.2 x.1.store c).1 (respond x.2 x.1.store c).2 x.1,
        x.2 ++ [⟨c, (respond x.2 x.1.store c).1⟩]))

/-- A step of a registration does not touch the savepoint. -/
theorem transacted_savepoint {c : SchedulerCall} (hc : c.isStep = true)
    (r : Except Throwable (quartz.Answer c)) (s : Store) (x : SchedulerState) :
    (transacted c r s x).savepoint = x.savepoint := by
  cases c with
  | getTransaction => cases hc
  | commit => cases hc
  | rollback => cases hc
  | _ => cases r <;> rfl

section Run

variable {σ : Type} {cfg : BeanConfig} {h : Handler quartz σ} {b b' : Bean} {x y z : σ}

/-- Beginning a transaction is one call. -/
theorem run_getTransaction {r : Except Throwable Unit} (ho : h .getTransaction x = (r, y)) :
    Body.runWith h TransactionManager.getTransaction b x = ((r, b), y) := by
  have hrun : Body.runWith h TransactionManager.getTransaction b x =
      (((h .getTransaction x).1, b), (h .getTransaction x).2) := Body.runWith_perform ..
  rw [hrun, ho]
  rfl

/-- A failure is rolled back in a transaction and passed on; a failing rollback overrides it. -/
theorem run_abandonRegistration (ex : Throwable) :
    Body.runWith h (abandonRegistration cfg ex) b x =
      if cfg.transactionManager then
        ((.error (match (h .rollback x).1 with
          | .ok _ => registrationFailure ex
          | .error tex => tex), b), (h .rollback x).2)
      else ((.error (registrationFailure ex), b), x) := by
  unfold abandonRegistration ifTransactional
  cases cfg.transactionManager with
  | false =>
    simp only [Bool.false_eq_true, if_false, pure_bind]
    exact Body.runWith_throw ..
  | true =>
    simp only [if_true]
    have hroll : Body.runWith h TransactionManager.rollback b x =
        (((h .rollback x).1, b), (h .rollback x).2) := Body.runWith_perform ..
    cases hk : (h .rollback x).1 with
    | ok u =>
      rw [hk] at hroll
      rw [Body.runWith_bind_of_ok hroll, Body.runWith_throw]
    | error tex =>
      rw [hk] at hroll
      rw [Body.runWith_bind_of_error hroll]

/-- Without a transaction manager, a registration that goes through ends normally. -/
theorem run_unmanaged_ok (hm : cfg.transactionManager = false)
    (hr : Body.runWith h (registerAll cfg) b x = ((.ok ⟨⟩, b'), y)) :
    Body.runWith h (registerJobsAndTriggers cfg) b x = ((.ok (), b'), y) := by
  unfold registerJobsAndTriggers ifTransactional
  simp only [hm, Bool.false_eq_true, if_false, pure_bind]
  rw [Body.runWith_bind_of_ok (Body.runWith_tryCatch_of_ok hr), Body.runWith_pure]

/-- Without a transaction manager, a failure is passed on. -/
theorem run_unmanaged_error (hm : cfg.transactionManager = false) {ex : Throwable}
    (hr : Body.runWith h (registerAll cfg) b x = ((.error ex, b'), y)) :
    Body.runWith h (registerJobsAndTriggers cfg) b x =
      ((.error (registrationFailure ex), b'), y) := by
  have hex : Body.runWith h (abandonRegistration cfg ex) b' y =
      ((.error (registrationFailure ex), b'), y) := by
    rw [run_abandonRegistration, hm]
    rfl
  unfold registerJobsAndTriggers ifTransactional
  simp only [hm, Bool.false_eq_true, if_false, pure_bind]
  exact Body.runWith_bind_of_error ((Body.runWith_tryCatch_of_error hr).trans hex)

variable (hm : cfg.transactionManager = true)

include hm

/-- A transaction that cannot be opened ends the call. -/
theorem run_managed_unopened {ex : Throwable} (ho : h .getTransaction x = (.error ex, y)) :
    Body.runWith h (registerJobsAndTriggers cfg) b x = ((.error ex, b), y) := by
  unfold registerJobsAndTriggers ifTransactional
  simp only [hm, if_true]
  exact Body.runWith_bind_of_error (run_getTransaction ho)

variable (ho : h .getTransaction x = (.ok (), y))

include ho

/-- In a transaction, a registration that goes through ends as its commit does. -/
theorem run_managed_ok (hr : Body.runWith h (registerAll cfg) b y = ((.ok ⟨⟩, b'), z)) :
    Body.runWith h (registerJobsAndTriggers cfg) b x =
      (((h .commit z).1, b'), (h .commit z).2) := by
  unfold registerJobsAndTriggers ifTransactional
  simp only [hm, if_true]
  rw [Body.runWith_bind_of_ok (run_getTransaction ho),
    Body.runWith_bind_of_ok (Body.runWith_tryCatch_of_ok hr)]
  exact Body.runWith_perform ..

/-- A registration that throws is rolled back, and its exception wrapped unless the rollback throws.
-/
theorem run_managed_error {ex : Throwable}
    (hr : Body.runWith h (registerAll cfg) b y = ((.error ex, b'), z)) :
    Body.runWith h (registerJobsAndTriggers cfg) b x =
      ((.error (match (h .rollback z).1 with
        | .ok _ => registrationFailure ex
        | .error tex => tex), b'), (h .rollback z).2) := by
  have hex : Body.runWith h (abandonRegistration cfg ex) b' z = _ :=
    (run_abandonRegistration ex).trans (if_pos hm)
  unfold registerJobsAndTriggers ifTransactional
  simp only [hm, if_true]
  rw [Body.runWith_bind_of_ok (run_getTransaction ho)]
  exact Body.runWith_bind_of_error ((Body.runWith_tryCatch_of_error hr).trans hex)

end Run

/-- What the steps of a transaction keep, what is inside the `try` keeps. -/
theorem registerAll_keeps {σ : Type} {cfg : BeanConfig} {h : Handler quartz σ} {I : σ → Prop}
    (hI : ∀ c x, c.isStep = true → I x → I (h c x).2) {b : Bean} {x : σ} (hx : I x) :
    I (Body.runWith h (registerAll cfg) b x).2 := by
  let R : σ → List (Event quartz) → Prop := fun y steps =>
    (∀ e ∈ steps, e.call.isStep = true) → I y
  have hcov : (observed (F := quartz)).Covers h R := by
    refine fun c y steps hy => ⟨_, rfl, fun hall => hI c y ?_ (hy fun e he => ?_)⟩
    · exact hall _ (List.mem_append_right _ (List.mem_singleton.mpr rfl))
    · exact hall e (List.mem_append_left _ he)
  obtain ⟨steps, hR, hout⟩ := (registerAll_propagates cfg).runWith hcov
    (show R x [] from fun _ => hx) ⟨trivial, smooth_nil⟩
  refine hR ?_
  rcases hr : (Body.runWith h (registerAll cfg) b x).1 with ⟨ex | u, b'⟩
  · rw [hr] at hout
    exact hout.steps
  · rw [hr] at hout
    exact fun e he => (hout.2 e he).1

/-- A registration none of whose calls fails ends normally. -/
theorem ok_of_no_call_fails {σ : Type} {cfg : BeanConfig} {h : Handler quartz σ} {b : Bean} {x : σ}
    (hcalls : ∀ e ∈ Body.calls h (registerJobsAndTriggers cfg) b x, e.answer.isOk = true) :
    (Body.runWith h (registerJobsAndTriggers cfg) b x).1.1 = .ok () := by
  -- what is inside the `try` went through, or some call of it failed
  have hall : ∀ {before : List (Event quartz)} {s : σ} {r : Except Throwable Unit} {b' : Bean}
      {y : σ × List (Event quartz)},
      Body.runWith (recorded h) (registerAll cfg) b (s, before) = ((r, b'), y) →
        (∀ e ∈ y.2, e.answer.isOk = true) → r = .ok () := by
    intro before s r b' y hrun hok
    obtain ⟨steps, hsteps, hout⟩ := (registerAll_propagates cfg).runWith
      (covers_recorded h before) (t := (s, before)) (List.append_nil before).symm
      (b := b) ⟨trivial, smooth_nil⟩
    rw [hrun] at hsteps hout
    cases r with
    | ok u => rfl
    | error ex =>
      have hbroken : BrokenBy SchedulerCall.isStep SchedulerCall.handles ex steps := hout
      obtain ⟨first, c, rfl, _⟩ := hbroken
      have hfailed : (⟨c, .error ex⟩ : Event quartz) ∈ y.2 := hsteps ▸ by simp
      cases hok _ hfailed
  obtain ⟨hresult, -⟩ := Program.run_recorded h ((registerJobsAndTriggers cfg).start b) (x, [])
  change (Body.runWith (recorded h) (registerJobsAndTriggers cfg) b (x, [])).1 =
    (Body.runWith h (registerJobsAndTriggers cfg) b x).1 at hresult
  rw [← hresult]
  unfold Body.calls at hcalls
  cases hm : cfg.transactionManager with
  | false =>
    obtain ⟨r, b', y, hrun⟩ : ∃ r b' y, Body.runWith (recorded h) (registerAll cfg) b (x, []) =
        ((r, b'), y) := ⟨_, _, _, rfl⟩
    cases r with
    | ok u => rw [run_unmanaged_ok hm hrun]
    | error ex =>
      rw [run_unmanaged_error hm hrun] at hcalls
      cases hall hrun hcalls
  | true =>
    cases ho : (recorded h .getTransaction (x, [])).1 with
    | error ex =>
      rw [run_managed_unopened hm (Prod.ext ho rfl)] at hcalls
      have hopened := hcalls ⟨.getTransaction, .error ex⟩ (by simp [recorded, ← ho])
      cases hopened
    | ok u =>
      have ho' : recorded h .getTransaction (x, []) =
          (.ok (), (recorded h .getTransaction (x, [])).2) := Prod.ext ho rfl
      obtain ⟨r, b', y, hrun⟩ : ∃ r b' y, Body.runWith (recorded h) (registerAll cfg) b
          (recorded h .getTransaction (x, [])).2 = ((r, b'), y) := ⟨_, _, _, rfl⟩
      cases r with
      | ok v =>
        rw [run_managed_ok hm ho' hrun] at hcalls ⊢
        have hcommit := hcalls ⟨.commit, (recorded h .commit y).1⟩ (by simp [recorded])
        cases hr : (recorded h .commit y).1 with
        | ok w => rfl
        | error ex =>
          rw [hr] at hcommit
          cases hcommit
      | error ex =>
        rw [run_managed_error hm ho' hrun] at hcalls
        refine absurd (hall hrun fun e he => hcalls e ?_) (by simp)
        exact List.mem_append_left _ he

section AllOrNothing

variable {cfg : BeanConfig} {respond : Respond} {b : Bean}

/-- What is inside the `try`, run after the trace `before`: its steps leave the savepoint
alone, and it goes through smoothly or throws what its last step failed with. -/
theorem registerAll_trace {x : SchedulerState} {before : List (Event quartz)}
    {r : Except Throwable Unit} {b' : Bean} {y : SchedulerState × List (Event quartz)}
    (hrun : Body.runWith (surroundings respond) (registerAll cfg) b (x, before) = ((r, b'), y)) :
    ∃ steps, y.2 = before ++ steps ∧ y.1.savepoint = x.savepoint ∧
      (∀ e ∈ steps, e.call.isStep = true) ∧
      match r with
      | .ok _ => Smooth SchedulerCall.isStep SchedulerCall.handles steps
      | .error ex => BrokenBy SchedulerCall.isStep SchedulerCall.handles ex steps := by
  let R : SchedulerState × List (Event quartz) → List (Event quartz) → Prop := fun y steps =>
    y.2 = before ++ steps ∧
      ((∀ e ∈ steps, e.call.isStep = true) → y.1.savepoint = x.savepoint)
  have hcov : (observed (F := quartz)).Covers (surroundings respond) R := by
    rintro c y steps ⟨htrace, hsave⟩
    refine ⟨_, rfl, ?_, fun hall => ?_⟩
    · simp only [surroundings, htrace, List.append_assoc]
    · have hc : c.isStep = true := hall _ (List.mem_append_right _ (List.mem_singleton.mpr rfl))
      rw [← hsave fun e he => hall e (List.mem_append_left _ he)]
      exact transacted_savepoint hc _ _ _
  have hstart : R (x, before) [] := ⟨by simp, fun _ => rfl⟩
  obtain ⟨steps, ⟨htrace, hsave⟩, hout⟩ := (registerAll_propagates cfg).runWith hcov hstart
    (b := b) ⟨trivial, smooth_nil⟩
  rw [hrun] at htrace hsave hout
  cases r with
  | ok u =>
    have hall : ∀ e ∈ steps, e.call.isStep = true := fun e he => (hout.2 e he).1
    exact ⟨steps, htrace, hsave hall, hall, hout.2⟩
  | error ex =>
    have hbroken : BrokenBy SchedulerCall.isStep SchedulerCall.handles ex steps := hout
    exact ⟨steps, htrace, hsave hbroken.steps, hbroken.steps, hbroken⟩

/-- A registration on the store `s₀`, in surroundings where anything may fail. -/
def registration (respond : Respond) (cfg : BeanConfig) (b : Bean) (s₀ : Store) :
    (Except Throwable Unit × Bean) × SchedulerState × List (Event quartz) :=
  Body.runWith (surroundings respond) (registerJobsAndTriggers cfg) b (⟨s₀, none⟩, [])

/-- How a registration in a transaction goes: smooth steps and the commit, or steps up to the
first failure and the rollback. -/
theorem transaction_course (hm : cfg.transactionManager = true) {s₀ : Store}
    {rest : List (Event quartz)}
    (hopen : (registration respond cfg b s₀).2.2 = ⟨.getTransaction, .ok ()⟩ :: rest) :
    ∃ steps : List (Event quartz), (∀ e ∈ steps, e.call.isStep = true) ∧
      ((Smooth SchedulerCall.isStep SchedulerCall.handles steps ∧
          ∃ r, rest = steps ++ [⟨.commit, r⟩]) ∨
        ∃ ex, BrokenBy SchedulerCall.isStep SchedulerCall.handles ex steps ∧
          ∃ r, rest = steps ++ [⟨.rollback, r⟩] ∧
            match r with
            | .ok _ =>
              (registration respond cfg b s₀).1.1 = .error (registrationFailure ex) ∧
                (registration respond cfg b s₀).2.1.store = s₀
            | .error tex => (registration respond cfg b s₀).1.1 = .error tex) := by
  let x₀ : SchedulerState × List (Event quartz) := (⟨s₀, none⟩, [])
  cases hr : (respond [] s₀ .getTransaction).1 with
  | error ex =>
    have ho : surroundings respond .getTransaction x₀ =
        (.error ex, (surroundings respond .getTransaction x₀).2) := Prod.ext hr rfl
    rw [registration, run_managed_unopened hm ho] at hopen
    simp [surroundings, x₀, hr] at hopen
  | ok u =>
    let x₁ : SchedulerState × List (Event quartz) := (⟨s₀, some s₀⟩, [⟨.getTransaction, .ok ()⟩])
    have ho : surroundings respond .getTransaction x₀ = (.ok (), x₁) := by
      simp only [surroundings, x₀, x₁, hr]
      rfl
    obtain ⟨r, b', y, hrun⟩ : ∃ r b' y,
        Body.runWith (surroundings respond) (registerAll cfg) b x₁ = ((r, b'), y) :=
      ⟨_, _, _, rfl⟩
    obtain ⟨steps, htrace, hsave, hsteps, hend⟩ := registerAll_trace hrun
    refine ⟨steps, hsteps, ?_⟩
    cases r with
    | ok v =>
      rw [registration, run_managed_ok hm ho hrun] at hopen
      refine Or.inl ⟨hend, (respond y.2 y.1.store .commit).1, ?_⟩
      simpa [surroundings, htrace] using hopen.symm
    | error ex =>
      rw [registration, run_managed_error hm ho hrun] at hopen ⊢
      refine Or.inr ⟨ex, hend, (respond y.2 y.1.store .rollback).1, ?_, ?_⟩
      · simpa [surroundings, htrace] using hopen.symm
      · cases hroll : (respond y.2 y.1.store .rollback).1 with
        | ok w => simp [surroundings, hroll, transacted, hsave]
        | error tex => simp [surroundings, hroll]

/-- A step is neither commit nor rollback. -/
theorem not_mem_of_steps {steps : List (Event quartz)} (h : ∀ e ∈ steps, e.call.isStep = true)
    {c : SchedulerCall} (hc : c.isStep = false) : c ∉ steps.map Event.call := by
  intro hm
  obtain ⟨e, he, rfl⟩ := List.mem_map.mp hm
  rw [h e he] at hc
  cases hc

/-- What is passed on is the original exception, or a scheduler exception that it caused. -/
theorem registrationFailure_eq (ex : Throwable) :
    if ex.isSchedulerException then registrationFailure ex = ex
    else (registrationFailure ex).isSchedulerException = true ∧
      (registrationFailure ex).getCause = some ex := by
  unfold registrationFailure
  split
  · rfl
  · exact ⟨rfl, rfl⟩

/-- A transactional registration is all or nothing. Once its transaction is open, exactly one
of commit and rollback is called, and it is called once; commit is called if and only if no
step threw; and when a step threw, the exception is the original one or caused by it and the
store is the initial one, unless the rollback itself throws. -/
theorem transaction_all_or_nothing (cfg : BeanConfig) (hm : cfg.transactionManager = true)
    (respond : Respond) (b : Bean) (s₀ : Store) (rest : List (Event quartz))
    (hopen : (registration respond cfg b s₀).2.2 = ⟨.getTransaction, .ok ()⟩ :: rest) :
    (rest.map Event.call).count .commit + (rest.map Event.call).count .rollback = 1 ∧
    (SchedulerCall.commit ∈ rest.map Event.call ↔
      ∀ e ∈ rest, e.call.isStep = true → e.threw SchedulerCall.handles = false) ∧
    ∀ c ex, ⟨c, .error ex⟩ ∈ rest → c.isStep = true → c.handles ex = false →
      ∃ r, ⟨.rollback, r⟩ ∈ rest ∧
        match r with
        | .ok _ =>
          (∃ thrown, (registration respond cfg b s₀).1.1 = .error thrown ∧
            if ex.isSchedulerException then thrown = ex
            else thrown.isSchedulerException = true ∧ thrown.getCause = some ex) ∧
          (registration respond cfg b s₀).2.1.store = s₀
        | .error tex => (registration respond cfg b s₀).1.1 = .error tex := by
  obtain ⟨steps, hsteps, ⟨hsmooth, r, rfl⟩ | ⟨ex, hbroken, r, rfl, hend⟩⟩ :=
    transaction_course hm hopen
  all_goals
    have hcommit : .commit ∉ steps.map Event.call := not_mem_of_steps hsteps rfl
    have hrollback : .rollback ∉ steps.map Event.call := not_mem_of_steps hsteps rfl
  · have hthrew : ∀ e ∈ steps ++ [⟨.commit, r⟩], e.call.isStep = true →
        e.threw SchedulerCall.handles = false := by
      intro e he hs
      rcases List.mem_append.mp he with he | he
      · exact (hsmooth e he).2
      · rw [List.mem_singleton.mp he] at hs
        cases hs
    refine ⟨?_, ⟨fun _ => hthrew, fun _ => by simp⟩, fun c ex he hc hex => ?_⟩
    · simp [List.count_eq_zero.mpr hcommit, List.count_eq_zero.mpr hrollback]
    · have h := hthrew _ he hc
      simp [Event.threw, hex] at h
  · have honly : ∀ c' ex', ⟨c', .error ex'⟩ ∈ steps → c'.handles ex' = false → ex' = ex :=
      fun _ _ => hbroken.eq_of_mem
    obtain ⟨before, c, rfl, _, hc, hex⟩ := hbroken
    refine ⟨?_, ⟨fun hm' => ?_, fun hall => ?_⟩, fun c' ex' he hc' hex' => ⟨r, by simp, ?_⟩⟩
    · rw [List.map_append, List.count_append, List.count_append,
        List.count_eq_zero.mpr hcommit, List.count_eq_zero.mpr hrollback]
      rfl
    · rw [List.map_append, List.mem_append] at hm'
      exact absurd (hm'.resolve_left hcommit) (by simp)
    · have h := hall ⟨c, .error ex⟩ (by simp) hc
      simp [Event.threw, hex] at h
    · have hsteps' : ⟨c', .error ex'⟩ ∈ before ++ [⟨c, .error ex⟩] := by
        rcases List.mem_append.mp he with he | he
        · exact he
        · cases List.mem_singleton.mp he
          cases hc'
      obtain rfl := honly c' ex' hsteps' hex'
      cases r with
      | ok u => exact ⟨⟨_, hend.1, registrationFailure_eq ex'⟩, hend.2⟩
      | error tex => exact hend

/-- The answers of the scheduler itself. -/
def scheduled (processFile : DataProcessor) : Respond := fun _ s c =>
  ((exec processFile c ⟨s, none⟩).1, (exec processFile c ⟨s, none⟩).2.store)

/-- A bean with a transaction manager and a trigger whose job is nowhere. -/
def danglingTrigger : BeanConfig where
  transactionManager := true
  overwriteExistingJobs := false
  jobSchedulingDataLocations := none
  jobDetails := none
  calendars := none
  triggers := some [⟨⟨"t", "g"⟩, ⟨"j", "g"⟩, .plain, ""⟩]

/-- A trigger without its job: one rollback, no commit, and an unchanged store. -/
theorem danglingTrigger_all_or_nothing :
    let out := registration (scheduled fun _ s => (.ok (), s)) danglingTrigger ⟨none⟩ Store.empty
    let rest : List (Event quartz) := [⟨.getTrigger ⟨"t", "g"⟩, .ok none⟩,
      ⟨.scheduleJob ⟨⟨"t", "g"⟩, ⟨"j", "g"⟩, .plain, ""⟩, .error jobDoesNotExist⟩,
      ⟨.rollback, .ok ()⟩]
    (rest.map Event.call).count .commit + (rest.map Event.call).count .rollback = 1 ∧
    (SchedulerCall.commit ∈ rest.map Event.call ↔
      ∀ e ∈ rest, e.call.isStep = true → e.threw SchedulerCall.handles = false) ∧
    ∀ c ex, ⟨c, .error ex⟩ ∈ rest → c.isStep = true → c.handles ex = false →
      ∃ r, ⟨.rollback, r⟩ ∈ rest ∧
        match r with
        | .ok _ =>
          (∃ thrown, out.1.1 = .error thrown ∧
            if ex.isSchedulerException then thrown = ex
            else thrown.isSchedulerException = true ∧ thrown.getCause = some ex) ∧
          out.2.1.store = Store.empty
        | .error tex => out.1.1 = .error tex :=
  transaction_all_or_nothing danglingTrigger rfl _ _ _ _ rfl

end AllOrNothing

end MySchedule.Registration
