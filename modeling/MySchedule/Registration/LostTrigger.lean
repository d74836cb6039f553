import MySchedule.Interaction.Amid
import MySchedule.Registration.Quartz18

/-!
# Triggers that vanish while they are registered

`addTriggerToScheduler` asks for a trigger and acts on the answer later. Others may
create or remove a trigger of the same key in between. When one that was seen has
gone, `rescheduleJob` stores nothing and returns null, which the method does not look
at: it returns true all the same.
-/

namespace MySchedule.Registration

open Interaction Java

/-- What others do to the trigger of one key. -/
inductive KeyChange (key : TriggerKey)
  | create (t : Trigger) (ht : t.key = key)
  | remove

/-- What the key holds afterwards. -/
def KeyChange.entry {key : TriggerKey} : KeyChange key → Option Trigger
  | .create t _ => some t
  | .remove => none

def KeyChange.apply {key : TriggerKey} (change : KeyChange key) (s : SchedulerState) :
    SchedulerState :=
  ⟨{ s.store with triggers := Function.update s.store.triggers key change.entry }, s.savepoint⟩

/-- The changes that others make before one call. -/
def applyChanges {key : TriggerKey} (changes : List (KeyChange key)) (s : SchedulerState) :
    SchedulerState :=
  changes.foldl (fun s change => change.apply s) s

/-- Whether a call, by its answer, stored the trigger. -/
def stores (trigger : Trigger) : (c : SchedulerCall) → Except Throwable c.Answer → Bool
  | .scheduleJob t, .ok _ => t = trigger
  | .rescheduleJob key t, .ok (some _) => key = trigger.key ∧ t = trigger
  | _, _ => false

/-- If the run reports the trigger as added, one of its calls stored it. -/
def TrulyReported (trigger : Trigger)
    (run : Ending quartz SchedulerState (Except Throwable Bool × Bean)) : Prop :=
  run.result.1 = .ok true → ∃ e ∈ run.calls, stores trigger e.call e.answer = true ∧
    e.after.store.triggers trigger.key = some trigger

section

variable {key : TriggerKey} (others : ℕ → List (KeyChange key)) (initial : Option Trigger)

/-- What call number `n` finds under the key, as long as no call has stored a trigger. -/
def foundAt : ℕ → Option Trigger
  | 0 => (others 0).foldl (fun _ change => change.entry) initial
  | n + 1 => (others (n + 1)).foldl (fun _ change => change.entry) (foundAt n)

/-- What the key holds right after the call before call number `n`. -/
def heldBefore : ℕ → Option Trigger
  | 0 => initial
  | n + 1 => foundAt others initial n

end

/-- Registering the trigger's job detail fails on a null reference. -/
def jobThrows (b : Bean) (trigger : Trigger) : Bool :=
  match trigger.kind with
  | .plain => false
  | .jobDetailAware jobDetail => b.jobDetails.isNone || jobDetail.isNone

/-- Registering the trigger's job detail takes a call. -/
def addsJob (b : Bean) (trigger : Trigger) : Bool :=
  match trigger.kind with
  | .plain => false
  | .jobDetailAware jobDetail => !containsJob (b.jobDetails.getD []) jobDetail

/-- The trigger that the method has seen, by asking or by a failed attempt to schedule, is
still there when the method comes to replace it. -/
def SeenTriggerStays (b : Bean) (trigger : Trigger) (found : ℕ → Option Trigger) : Prop :=
  let n := if addsJob b trigger then 2 else 1
  jobThrows b trigger = true ∨
    (found 0 ≠ none → found n ≠ none) ∧
      (found 0 = none → found n ≠ none → found (n + 1) ≠ none)

section

variable {key : TriggerKey} {others : ℕ → List (KeyChange key)} {processFile : DataProcessor}
  {cfg : BeanConfig} {b : Bean} {trigger : Trigger} {n : ℕ} {s : SchedulerState}

/-- Of several changes to a key the last one counts. -/
theorem triggers_applyChanges (changes : List (KeyChange key)) (s : SchedulerState) :
    (applyChanges changes s).store.triggers key =
      changes.foldl (fun _ change => change.entry) (s.store.triggers key) := by
  induction changes generalizing s with
  | nil => rfl
  | cons change changes ih =>
    have hentry : (change.apply s).store.triggers key = change.entry := Function.update_self ..
    have hrest := ih (change.apply s)
    rw [hentry] at hrest
    exact hrest

/-- A call that stores the trigger leaves it in the store. -/
theorem stored_of_stores {c : SchedulerCall} {answer : Except Throwable c.Answer}
    {s' : SchedulerState} (hexec : exec processFile c s = (answer, s'))
    (h : stores trigger c answer = true) :
    s'.store.triggers trigger.key = some trigger := by
  cases c with
  | scheduleJob t =>
    simp only [exec] at hexec
    split at hexec
    · cases hexec
      cases h
    · split at hexec
      · cases hexec
        cases h
      · cases hexec
        have ht : t = trigger := by simpa [stores] using h
        simp [Store.putTrigger, ht]
  | rescheduleJob k t =>
    simp only [exec] at hexec
    split at hexec
    · cases hexec
      obtain ⟨hk, ht⟩ : k = trigger.key ∧ t = trigger := by simpa [stores] using h
      simp [Store.putTrigger, hk, ht]
    · cases hexec
      cases h
  | _ => cases answer <;> cases h

/-- What a call finds, from what was held before the changes in front of it. -/
theorem triggers_found {initial : Option Trigger}
    (hs : s.store.triggers key = heldBefore others initial n) :
    (applyChanges (others n) s).store.triggers key = foundAt others initial n := by
  rw [triggers_applyChanges, hs]
  cases n <;> rfl

/-- The call that adds a job detail, as it is executed on `s`. -/
def jobAdded (j : JobDetail) (s : SchedulerState) : Execution quartz SchedulerState :=
  ⟨SchedulerCall.addJob (some j) true, s, .ok (), { s with store := s.store.putJob j }⟩

/-- Adding a job detail takes one call. -/
theorem addJobToScheduler_amid (processFile : DataProcessor)
    (ho : cfg.overwriteExistingJobs = true) (j : JobDetail)
    (o : ℕ → SchedulerState → SchedulerState) :
    (addJobToScheduler cfg (some j)).runAmid (exec processFile) o b n s =
      ⟨(.ok true, b), [jobAdded j (o n s)], (jobAdded j (o n s)).after⟩ := by
  unfold addJobToScheduler mayAddJob
  rw [if_pos ho]
  rfl

/-- A null job detail throws. -/
theorem addJobToScheduler_amid_null (processFile : DataProcessor)
    (ho : cfg.overwriteExistingJobs = true) (o : ℕ → SchedulerState → SchedulerState) : ∃ calls s',
    (addJobToScheduler cfg none).runAmid (exec processFile) o b n s =
      ⟨(.error .nullPointer, b), calls, s'⟩ := by
  unfold addJobToScheduler mayAddJob
  rw [if_pos ho]
  exact ⟨_, _, rfl⟩

/-- A null job detail, or a null list of them, ends the method. -/
theorem registerJobOfTrigger_amid_throws (processFile : DataProcessor)
    (others : ℕ → List (KeyChange key)) (ho : cfg.overwriteExistingJobs = true)
    (hthrows : jobThrows b trigger = true) : ∃ ex b' calls s',
    (registerJobOfTrigger cfg trigger).runAmid (exec processFile)
      (fun n => applyChanges (others n)) b n s = ⟨(.error ex, b'), calls, s'⟩ := by
  unfold registerJobOfTrigger
  cases hkind : trigger.kind with
  | plain => simp [jobThrows, hkind] at hthrows
  | jobDetailAware jobDetail =>
    unfold registerAwareJob
    simp only [Body.runAmid_get_bind]
    cases hlist : b.jobDetails with
    | none => exact ⟨_, _, _, _, rfl⟩
    | some jobDetails =>
      have hnull : jobDetail = none := by simpa [jobThrows, hkind, hlist] using hthrows
      subst hnull
      obtain ⟨calls, s', hadd⟩ := addJobToScheduler_amid_null (b := b) (n := n) (s := s)
        processFile ho fun n => applyChanges (others n)
      simp only [containsJob, Bool.not_false, if_true]
      exact ⟨_, _, _, _, Body.runAmid_bind_of_error hadd⟩

/-- Registering the job detail stores no trigger. -/
theorem registerJobOfTrigger_amid (processFile : DataProcessor)
    (ho : cfg.overwriteExistingJobs = true) (hthrows : jobThrows b trigger = false)
    {initial : Option Trigger}
    (hs : s.store.triggers key = heldBefore others initial n) : ∃ b' calls s',
    (registerJobOfTrigger cfg trigger).runAmid (exec processFile)
      (fun n => applyChanges (others n)) b n s = ⟨(.ok (), b'), calls, s'⟩ ∧
      calls.length = (if addsJob b trigger then 1 else 0) ∧
      (∀ e ∈ calls, stores trigger e.call e.answer = false) ∧
      s'.store.triggers key = heldBefore others initial (n + calls.length) := by
  unfold registerJobOfTrigger
  cases hkind : trigger.kind with
  | plain => exact ⟨b, [], s, rfl, by simp [addsJob, hkind], by simp, hs⟩
  | jobDetailAware jobDetail =>
    obtain ⟨⟨jobDetails, hlist⟩, j, rfl⟩ :
        (∃ jobDetails, b.jobDetails = some jobDetails) ∧ ∃ j, jobDetail = some j := by
      simpa [jobThrows, hkind, Option.isNone_eq_false_iff, Option.isSome_iff_exists] using hthrows
    unfold registerAwareJob
    simp only [Body.runAmid_get_bind, hlist]
    cases hcontains : containsJob jobDetails (some j) with
    | true =>
      exact ⟨b, [], s, rfl, by simp [addsJob, hkind, hlist, hcontains], by simp, hs⟩
    | false =>
      have hadd := addJobToScheduler_amid (b := b) (n := n) (s := s) processFile ho j
        fun n => applyChanges (others n)
      simp only [Bool.not_false, if_true]
      refine ⟨⟨some (jobDetails ++ [j])⟩, [jobAdded j (applyChanges (others n) s)],
        (jobAdded j (applyChanges (others n) s)).after,
        (Body.runAmid_bind_of_ok hadd).trans rfl, ?_, ?_, ?_⟩
      · simp [addsJob, hkind, hlist, hcontains]
      · simp [jobAdded, stores]
      · exact triggers_found hs

/-- To replace the trigger is one call, which stores it if there is one to replace. -/
theorem rescheduleJob_amid (processFile : DataProcessor)
    (o : ℕ → SchedulerState → SchedulerState) (b : Bean) (trigger : Trigger) (n : ℕ)
    (s : SchedulerState) : ∃ e,
    (discard (Scheduler.rescheduleJob trigger.key trigger) : BeanM Unit).runAmid
      (exec processFile) o b n s = ⟨(.ok (), b), [e], e.after⟩ ∧
      (stores trigger e.call e.answer = true ↔ (o n s).store.triggers trigger.key ≠ none) := by
  by_cases hfound : (o n s).store.triggers trigger.key = none
  · have hexec : exec processFile (.rescheduleJob trigger.key trigger) (o n s) =
        (.ok none, o n s) := exec_rescheduleJob_absent hfound
    exact ⟨_, Body.runAmid_discard_perform hexec, by simp [stores, hfound]⟩
  · have hexec : exec processFile (.rescheduleJob trigger.key trigger) (o n s) =
        (.ok (some ⟨⟩), { o n s with store := (o n s).store.putTrigger trigger.key trigger }) :=
      exec_rescheduleJob_there hfound
    exact ⟨_, Body.runAmid_discard_perform hexec, by simp [stores, hfound]⟩

/-- The exception of `scheduleJob` is the one that is handled. -/
theorem alreadyExists_caught : alreadyExists.isObjectAlreadyExists = true := rfl

/-- A new trigger: the call that schedules it either stores it or fails, and after finding
one of its key it turns to replacing that one. -/
theorem scheduleNewTrigger_amid (processFile : DataProcessor)
    (ho : cfg.overwriteExistingJobs = true) (o : ℕ → SchedulerState → SchedulerState) (b : Bean)
    (trigger : Trigger) (n : ℕ) (s : SchedulerState) :
    ((o n s).store.triggers trigger.key = none ∧ ∃ r e,
      (scheduleNewTrigger cfg trigger).runAmid (exec processFile) o b n s = ⟨(r, b), [e], e.after⟩ ∧
        (r = .ok () → stores trigger e.call e.answer = true)) ∨
    ((o n s).store.triggers trigger.key ≠ none ∧ ∃ e e',
      (scheduleNewTrigger cfg trigger).runAmid (exec processFile) o b n s =
        ⟨(.ok (), b), [e, e'], e'.after⟩ ∧ stores trigger e.call e.answer = false ∧
        (stores trigger e'.call e'.answer = true ↔
          (o (n + 1) (o n s)).store.triggers trigger.key ≠ none)) := by
  unfold scheduleNewTrigger
  by_cases hfound : (o n s).store.triggers trigger.key = none
  · left
    refine ⟨hfound, ?_⟩
    by_cases hjob : (o n s).store.jobs trigger.jobKey = none
    · have hexec : exec processFile (.scheduleJob trigger) (o n s) =
          (.error jobDoesNotExist, o n s) := exec_scheduleJob_noJob hfound hjob
      refine ⟨_, _, (Body.runAmid_tryCatch_of_error
        (Body.runAmid_discard_perform_error hexec)).trans rfl, ?_⟩
      intro h
      cases h
    · have hexec : exec processFile (.scheduleJob trigger) (o n s) =
          (.ok ⟨⟩, { o n s with store := (o n s).store.putTrigger trigger.key trigger }) :=
        exec_scheduleJob_new hfound hjob
      exact ⟨_, _, Body.runAmid_tryCatch_of_ok (Body.runAmid_discard_perform hexec),
        fun _ => by simp [stores]⟩
  · right
    refine ⟨hfound, ?_⟩
    have hexec : exec processFile (.scheduleJob trigger) (o n s) = (.error alreadyExists, o n s) :=
      exec_scheduleJob_there hfound
    obtain ⟨e', hagain, hstores⟩ :=
      rescheduleJob_amid processFile o b trigger (n + 1) (o n s)
    refine ⟨⟨SchedulerCall.scheduleJob trigger, o n s, .error alreadyExists, o n s⟩, e', ?_, rfl,
      hstores⟩
    refine (Body.runAmid_tryCatch_of_error (Body.runAmid_discard_perform_error hexec)).trans ?_
    simp only [alreadyExists_caught, ho, if_true, List.length_singleton, hagain,
      List.singleton_append]

/-- In a run the state after a storing call has the trigger. -/
theorem trulyReported_iff (processFile : DataProcessor) (o : ℕ → SchedulerState → SchedulerState)
    (m : BeanM Bool) (b : Bean) (n : ℕ) (s : SchedulerState) :
    TrulyReported trigger (m.runAmid (exec processFile) o b n s) ↔
      ((m.runAmid (exec processFile) o b n s).result.1 = .ok true →
        ∃ e ∈ (m.runAmid (exec processFile) o b n s).calls,
          stores trigger e.call e.answer = true) := by
  constructor
  · intro h hresult
    obtain ⟨e, he, hstores, _⟩ := h hresult
    exact ⟨e, he, hstores⟩
  · intro h hresult
    obtain ⟨e, he, hstores⟩ := h hresult
    have hexec := Program.runAmid_executed (exec processFile) o (m.start b) n s e he
    exact ⟨e, he, hstores, stored_of_stores hexec hstores⟩

/-- The method after its first call, in overwriting mode. -/
def registerSeen (cfg : BeanConfig) (triggerExists : Bool) (trigger : Trigger) : BeanM Bool := do
  registerJobOfTrigger cfg trigger
  storeTrigger cfg triggerExists trigger
  return true

/-- The first call of the method stores no trigger, and the rest depends on what was found. -/
theorem addTriggerToScheduler_amid (processFile : DataProcessor)
    (ho : cfg.overwriteExistingJobs = true) (o : ℕ → SchedulerState → SchedulerState) (b : Bean)
    (trigger : Trigger) (s : SchedulerState) : ∃ e, stores trigger e.call e.answer = false ∧
    (addTriggerToScheduler cfg trigger).runAmid (exec processFile) o b 0 s =
      let rest := (registerSeen cfg ((o 0 s).store.triggers trigger.key).isSome trigger).runAmid
        (exec processFile) o b 1 (o 0 s)
      ⟨rest.result, e :: rest.calls, rest.final⟩ := by
  have hbody : addTriggerToScheduler cfg trigger = Scheduler.getTrigger trigger.key >>=
      fun existing => registerSeen cfg existing.isSome trigger := by
    unfold addTriggerToScheduler registerSeen
    simp only [ho, Bool.or_true, if_true]
  have hcall : (Scheduler.getTrigger trigger.key).runAmid (exec processFile) o b 0 s =
      ⟨(.ok ((o 0 s).store.triggers trigger.key), b),
        [⟨SchedulerCall.getTrigger trigger.key, o 0 s, .ok ((o 0 s).store.triggers trigger.key),
          o 0 s⟩], o 0 s⟩ := rfl
  rw [hbody]
  exact ⟨_, rfl, Body.runAmid_bind_of_ok hcall⟩

/-- The calls that store the trigger, by whether the method has seen one: they store it, or the
method does not return true, exactly when a trigger it has seen is not gone again. -/
theorem storeTrigger_amid (processFile : DataProcessor) (ho : cfg.overwriteExistingJobs = true)
    (b : Bean) {others : ℕ → List (KeyChange trigger.key)} {initial : Option Trigger}
    (seen : Option Trigger) (hfound : (applyChanges (others n) s).store.triggers trigger.key =
      foundAt others initial n) :
    let run := (storeTrigger cfg seen.isSome trigger >>= fun _ => pure true : BeanM Bool).runAmid
      (exec processFile) (fun n => applyChanges (others n)) b n s
    (run.result.1 = .ok true → ∃ e ∈ run.calls, stores trigger e.call e.answer = true) ↔
      (seen ≠ none → foundAt others initial n ≠ none) ∧
        (seen = none → foundAt others initial n ≠ none →
          foundAt others initial (n + 1) ≠ none) := by
  intro run
  cases seen with
  | some t =>
    obtain ⟨e, hstore, hstores⟩ := rescheduleJob_amid processFile
      (fun n => applyChanges (others n)) b trigger n s
    have hends : run = ⟨(.ok true, b), [e], e.after⟩ :=
      (Body.runAmid_bind_of_ok (f := fun _ => pure true) hstore).trans rfl
    rw [hfound] at hstores
    simp [hends, hstores]
  | none =>
    rcases scheduleNewTrigger_amid processFile ho (fun n => applyChanges (others n)) b trigger n s
      with ⟨habsent, r, e, hstore, hstores⟩ | ⟨hpresent, e, e', hstore, hfirst, hsecond⟩
    · rw [hfound] at habsent
      cases r with
      | error ex =>
        have hends : run = ⟨(.error ex, b), [e], e.after⟩ :=
          Body.runAmid_bind_of_error (f := fun _ => pure true) hstore
        simp [hends, habsent]
      | ok _ =>
        have hends : run = ⟨(.ok true, b), [e], e.after⟩ :=
          (Body.runAmid_bind_of_ok (f := fun _ => pure true) hstore).trans rfl
        simp [hends, hstores rfl, habsent]
    · have hends : run = ⟨(.ok true, b), [e, e'], e'.after⟩ :=
        (Body.runAmid_bind_of_ok (f := fun _ => pure true) hstore).trans rfl
      have hagain := triggers_found (n := n + 1) hfound
      rw [hfound] at hpresent
      rw [hagain] at hsecond
      simp [hends, hfirst, hsecond, hpresent]

/-- Calls that do not store the trigger make no difference. -/
theorem exists_stores_append {calls rest : List (Execution quartz SchedulerState)}
    (hnone : ∀ e ∈ calls, stores trigger e.call e.answer = false) :
    (∃ e ∈ calls ++ rest, stores trigger e.call e.answer = true) ↔
      ∃ e ∈ rest, stores trigger e.call e.answer = true := by
  constructor
  · rintro ⟨e, he, hstores⟩
    rcases List.mem_append.mp he with he | he
    · rw [hnone e he] at hstores
      cases hstores
    · exact ⟨e, he, hstores⟩
  · rintro ⟨e, he, hstores⟩
    exact ⟨e, List.mem_append_right calls he, hstores⟩

/-- The run after the first call, by what that call saw. -/
theorem registerSeen_amid (processFile : DataProcessor) (ho : cfg.overwriteExistingJobs = true)
    (b : Bean) {others : ℕ → List (KeyChange trigger.key)} {initial : Option Trigger}
    (hs : s.store.triggers trigger.key = heldBefore others initial 1) :
    let run := (registerSeen cfg (foundAt others initial 0).isSome trigger).runAmid
      (exec processFile) (fun n => applyChanges (others n)) b 1 s
    (run.result.1 = .ok true → ∃ e ∈ run.calls, stores trigger e.call e.answer = true) ↔
      SeenTriggerStays b trigger (foundAt others initial) := by
  intro run
  cases hthrows : jobThrows b trigger with
  | true =>
    obtain ⟨ex, b', calls, s', hregister⟩ := registerJobOfTrigger_amid_throws
      processFile others ho hthrows
    have hrun : run = ⟨(.error ex, b'), calls, s'⟩ := Body.runAmid_bind_of_error hregister
    simp [hrun, SeenTriggerStays, hthrows]
  | false =>
    obtain ⟨b', calls, s', hregister, hlength, hnone, hheld⟩ := registerJobOfTrigger_amid
      processFile ho hthrows hs
    have hn : 1 + calls.length = if addsJob b trigger then 2 else 1 := by
      rw [hlength]
      split <;> rfl
    have hstore := storeTrigger_amid processFile ho b' (foundAt others initial 0)
      (triggers_found hheld)
    have hrun := Body.runAmid_bind_of_ok (f := fun _ =>
      storeTrigger cfg (foundAt others initial 0).isSome trigger >>= fun _ => pure true) hregister
    change run = _ at hrun
    rw [hrun, exists_stores_append hnone]
    apply hstore.trans
    rw [hn]
    simp [SeenTriggerStays, hthrows]

/-- A trigger that either copy of the method reports as added was stored by it, exactly when
the job detail fails or a trigger that the method has seen under the key is not removed before
the method replaces it. -/
theorem addTriggerToScheduler_truly_iff (processFile : DataProcessor) (cfg : BeanConfig)
    (ho : cfg.overwriteExistingJobs = true) (b : Bean) (trigger : Trigger)
    (others : ℕ → List (KeyChange trigger.key)) (s : SchedulerState) :
    (TrulyReported trigger ((addTriggerToScheduler cfg trigger).runAmid (exec processFile)
        (fun n => applyChanges (others n)) b 0 s) ↔
      SeenTriggerStays b trigger (foundAt others (s.store.triggers trigger.key))) ∧
    (TrulyReported trigger ((Quartz18.addTriggerToScheduler cfg trigger).runAmid
        (exec processFile) (fun n => applyChanges (others n)) b 0 s) ↔
      SeenTriggerStays b trigger (foundAt others (s.store.triggers trigger.key))) := by
  rw [Quartz18.addTriggerToScheduler_eq, and_self, trulyReported_iff]
  obtain ⟨e, hfirst, hrun⟩ := addTriggerToScheduler_amid processFile ho
    (fun n => applyChanges (others n)) b trigger s
  have hseen : (applyChanges (others 0) s).store.triggers trigger.key =
      foundAt others (s.store.triggers trigger.key) 0 := triggers_found rfl
  refine Iff.trans ?_ (registerSeen_amid processFile ho b hseen)
  rw [hrun, hseen]
  simp [hfirst]

end

/-- A trigger to register, over one of its key that fires once. -/
def nightly : Trigger := ⟨⟨"nightly", "DEFAULT"⟩, ⟨"cleanup", "DEFAULT"⟩, .plain, "0 0 2 * * ?"⟩

/-- A bean that overwrites, with nothing but the trigger to register. -/
def overwriting : BeanConfig := ⟨false, true, none, none, none, some [nightly]⟩

/-- The scheduler with a trigger of that key. -/
def oneShot : SchedulerState :=
  ⟨Store.empty.putTrigger nightly.key { nightly with definition := "once" }, none⟩

/-- The scheduler with the job of the trigger, but no trigger. -/
def cleanupOnly : SchedulerState :=
  ⟨Store.empty.putJob ⟨⟨"cleanup", "DEFAULT"⟩, ""⟩, none⟩

/-- Another node creates a trigger of the key right after the method has looked in vain. -/
def createdMeanwhile : ℕ → List (KeyChange nightly.key) := fun n =>
  if n = 1 then [.create { nightly with definition := "once" } rfl] else []

/-- The method meets the trigger that was created meanwhile, and replaces it. -/
theorem nightly_truly_reported :
    TrulyReported nightly ((addTriggerToScheduler overwriting nightly).runAmid
      (exec fun _ s => (.ok (), s)) (fun n => applyChanges (createdMeanwhile n))
      ⟨none⟩ 0 cleanupOnly) := by
  apply (addTriggerToScheduler_truly_iff _ overwriting rfl ⟨none⟩ nightly createdMeanwhile
    cleanupOnly).1.mpr
  refine Or.inr ⟨fun hseen => absurd rfl hseen, fun _ _ => ?_⟩
  -- nobody removes it before the call that replaces it
  have hstays : foundAt createdMeanwhile (cleanupOnly.store.triggers nightly.key) 2 =
      some { nightly with definition := "once" } := rfl
  exact hstays ▸ Option.some_ne_none _

/-- The old trigger fires for the last time right after the method has seen it. -/
theorem nightly_lost :
    ¬ TrulyReported nightly ((addTriggerToScheduler overwriting nightly).runAmid
      (exec fun _ s => (.ok (), s))
      (fun n => applyChanges (if n = 1 then [.remove] else ([] : List (KeyChange nightly.key))))
      ⟨none⟩ 0 oneShot) := by
  rw [trulyReported_iff]
  intro h
  obtain ⟨e, he, hstores⟩ := h rfl
  have hcalls : ((addTriggerToScheduler overwriting nightly).runAmid
      (exec fun _ s => (.ok (), s))
      (fun n => applyChanges (if n = 1 then [.remove] else ([] : List (KeyChange nightly.key))))
      ⟨none⟩ 0 oneShot).calls.map (fun e => stores nightly e.call e.answer) = [false, false] := rfl
  have hfalse : stores nightly e.call e.answer ∈ [false, false] := by
    rw [← hcalls]
    exact List.mem_map.mpr ⟨e, he, rfl⟩
  rw [hstores] at hfalse
  simp at hfalse

end MySchedule.Registration
