import MySchedule.Interaction.Surroundings
import MySchedule.Server.QuartzServer
import MySchedule.Machines.Runs

/-!
# Schedulers as services of an application server

A service gets its scheduler when it is started, and shuts it down when it is stopped.
The factory keeps a scheduler under its name until that is shut down, so services of one
name share theirs. Whatever fails, no scheduler is left behind by a service that could
have stopped it.
-/

namespace MySchedule.JBoss

open Interaction Java Machines

/-- The calls of a service on the scheduler factory and on a scheduler. -/
inductive SchedulerCall
  | getScheduler (configName : Option String)
  | getSchedulerName (scheduler : Nat)
  | start (scheduler : Nat)
  | shutdown (scheduler : Nat) (waitForJobsToComplete : Bool)

def SchedulerCall.Answer : SchedulerCall → Type
  | .getScheduler _ => Nat
  | .getSchedulerName _ => String
  | _ => Unit

abbrev schedulerCalls : Effects := ⟨SchedulerCall, SchedulerCall.Answer, Throwable⟩

/-- The fields of a service. -/
structure QuartzSchedulerService where
  configName : Option String
  scheduler : Option Nat
  autoStart : Bool
  waitForJobsToComplete : Bool
  deriving DecidableEq, Repr

abbrev ServiceM (α : Type) : Type := Body schedulerCalls QuartzSchedulerService α

section

variable (toString : Throwable → String)

/-- `catch (SchedulerException e) { throw new RuntimeException(e); }`. -/
def rethrow (ex : Throwable) : ServiceM Unit :=
  if ex.isSchedulerException then throw (Server.runtimeException toString ex) else throw ex

/-- The name of the scheduler, for the log. -/
def getSchedulerName (scheduler : Nat) : ServiceM Unit :=
  discard (Body.perform (F := schedulerCalls) (.getSchedulerName scheduler))

def start : ServiceM Unit := do
  let service ← get
  tryCatch (do
    let scheduler ← Body.perform (F := schedulerCalls) (.getScheduler service.configName)
    set { service with scheduler := some scheduler }
    getSchedulerName scheduler
    if service.autoStart then
      Body.perform (F := schedulerCalls) (.start scheduler)
      getSchedulerName scheduler) (rethrow toString)

def stop : ServiceM Unit := do
  let service ← get
  match service.scheduler with
  | none => pure ()
  | some scheduler =>
    tryCatch (do
      getSchedulerName scheduler
      Body.perform (F := schedulerCalls) (.shutdown scheduler service.waitForJobsToComplete))
      (rethrow toString)

end

/-! ## The schedulers of a virtual machine -/

inductive Status
  | standby
  | started
  | shutdown
  deriving DecidableEq, Repr

structure Scheduler where
  name : String
  status : Status
  deriving DecidableEq, Repr

/-- All schedulers ever made, each known by its number. -/
abbrev Schedulers : Type := List Scheduler

/-- The factory: the scheduler of the name that is not shut down yet, or a new one. -/
def getScheduler (name : String) (s : Schedulers) : Nat × Schedulers :=
  match s.findIdx? fun x => x.name = name && x.status ≠ .shutdown with
  | some scheduler => (scheduler, s)
  | none => (s.length, s ++ [⟨name, .standby⟩])

def setStatus (status : Status) (scheduler : Nat) (s : Schedulers) : Schedulers :=
  s.modify scheduler fun x => { x with status }

/-- What the calls of the factory and of its schedulers do, as they are documented; `nameOf` is the
name that a configuration gives its scheduler. -/
def onSchedulers (nameOf : Option String → String) : Handler schedulerCalls Schedulers
  | .getScheduler configName, s =>
    (.ok (getScheduler (nameOf configName) s).1, (getScheduler (nameOf configName) s).2)
  | .getSchedulerName scheduler, s => (.ok ((s[scheduler]?.map Scheduler.name).getD ""), s)
  | .start scheduler, s =>
    if s[scheduler]?.map Scheduler.status = some .shutdown then
      (.error (.plain .schedulerException
        (some "The Scheduler cannot be restarted after shutdown() has been called.")), s)
    else (.ok (), setStatus .started scheduler s)
  | .shutdown scheduler _, s => (.ok (), setStatus .shutdown scheduler s)

/-- The name of a scheduler that is not shut down. -/
def liveName (s : Schedulers) (scheduler : Nat) : Option String :=
  (s[scheduler]?.filter (·.status ≠ .shutdown)).map Scheduler.name

section

variable {s : Schedulers} {name : String}

theorem liveName_of_le {scheduler : Nat} (h : s.length ≤ scheduler) :
    liveName s scheduler = none := by
  rw [liveName, List.getElem?_eq_none h]
  rfl

theorem liveName_new (name : String) (scheduler : Nat) :
    liveName (s ++ [⟨name, .standby⟩]) scheduler =
      if scheduler = s.length then some name else liveName s scheduler := by
  rcases Nat.lt_trichotomy scheduler s.length with hlt | rfl | hgt
  · rw [if_neg (Nat.ne_of_lt hlt), liveName, List.getElem?_append_left hlt, liveName]
  · rw [if_pos rfl, liveName, List.getElem?_concat_length]
    rfl
  · have hlength : (s ++ [(⟨name, .standby⟩ : Scheduler)]).length ≤ scheduler := by
      rw [List.length_append]
      exact hgt
    rw [if_neg (Nat.ne_of_gt hgt), liveName_of_le hlength, liveName_of_le (Nat.le_of_lt hgt)]

theorem liveName_shutdown (scheduler other : Nat) :
    liveName (setStatus .shutdown scheduler s) other =
      if other = scheduler then none else liveName s other := by
  rw [liveName, setStatus, List.getElem?_modify, liveName]
  by_cases h : other = scheduler
  · subst h
    cases s[other]? <;> simp
  · cases s[other]? <;> simp [h, Ne.symm h]

/-- A scheduler that may be started stays what it was, but for its status. -/
theorem liveName_started {scheduler : Nat}
    (h : s[scheduler]?.map Scheduler.status ≠ some .shutdown) (other : Nat) :
    liveName (setStatus .started scheduler s) other = liveName s other := by
  rw [liveName, setStatus, List.getElem?_modify, liveName]
  by_cases hother : other = scheduler
  · subst hother
    cases hx : s[other]? with
    | none => rfl
    | some x =>
      have hstatus : x.status ≠ .shutdown := by simpa [hx] using h
      simp [Option.filter, hstatus]
  · cases s[other]? <;> simp [Ne.symm hother]

/-- The factory finds the scheduler of the name, or makes one with a number of its own. -/
theorem getScheduler_cases (name : String) (s : Schedulers) :
    (∃ found, liveName s found = some name ∧ getScheduler name s = (found, s)) ∨
      (∀ other, liveName s other ≠ some name) ∧
        getScheduler name s = (s.length, s ++ [⟨name, .standby⟩]) := by
  unfold getScheduler
  cases hfind : s.findIdx? fun x => x.name = name && x.status ≠ .shutdown with
  | some found =>
    obtain ⟨hlt, hfound, _⟩ := List.findIdx?_eq_some_iff_getElem.mp hfind
    simp only [Bool.and_eq_true, decide_eq_true_eq] at hfound
    refine Or.inl ⟨found, ?_, rfl⟩
    rw [liveName, List.getElem?_eq_getElem hlt, Option.filter_some_pos (by simpa using hfound.2),
      Option.map_some, hfound.1]
  | none =>
    refine Or.inr ⟨fun other hother => ?_, rfl⟩
    obtain ⟨x, hx, rfl⟩ := Option.map_eq_some_iff.mp hother
    obtain ⟨hx, hstatus⟩ := Option.filter_eq_some_iff.mp hx
    have hnone := List.findIdx?_eq_none_iff.mp hfind x (List.mem_of_getElem? hx)
    simp only [decide_eq_true_eq] at hstatus
    simp [hstatus] at hnone

/-- Its answer is not shut down and has the name; no other scheduler changes. -/
theorem liveName_getScheduler (name : String) (s : Schedulers) (other : Nat) :
    liveName (getScheduler name s).2 other =
      if other = (getScheduler name s).1 then some name else liveName s other := by
  rcases getScheduler_cases name s with ⟨found, hfound, heq⟩ | ⟨_, heq⟩
  · rw [heq]
    by_cases h : other = found
    · rw [if_pos h, h, hfound]
    · rw [if_neg h]
  · rw [heq, liveName_new]

end

/-! ## What a service does to them -/

section

variable (nameOf : Option String → String) (fails : Nat → SchedulerCall → Option Throwable)

/-- The schedulers, with calls that fail in place of what they do: a call that fails changes
none. -/
def serve : Handler schedulerCalls (Schedulers × Nat) :=
  faulty fails (fun _ _ s => s) (onSchedulers nameOf)

/-- The service has got its scheduler; whether that is started is left open. -/
structure Got (before : QuartzSchedulerService) (s : Schedulers)
    (service : QuartzSchedulerService) (s' : Schedulers) : Prop where
  service : service =
    { before with scheduler := some (getScheduler (nameOf before.configName) s).1 }
  length : s'.length = (getScheduler (nameOf before.configName) s).2.length
  live : ∀ scheduler, liveName s' scheduler =
    liveName (getScheduler (nameOf before.configName) s).2 scheduler

variable {nameOf fails} {toString : Throwable → String}

/-- What is thrown, a state is kept. -/
theorem rethrow_achieves {ex : Throwable}
    {P : QuartzSchedulerService → Schedulers × Nat → Prop}
    {Q : Unit → QuartzSchedulerService → Schedulers × Nat → Prop} :
    Achieves (serve nameOf fails) P (rethrow toString ex) Q fun _ => P := by
  unfold rethrow
  exact Achieves.ite (fun _ => Achieves.throw fun _ _ h => h) fun _ => Achieves.throw fun _ _ h => h

/-- To ask for a name changes nothing. -/
theorem getSchedulerName_achieves {P : QuartzSchedulerService → Schedulers → Prop}
    (scheduler : Nat) : Achieves (serve nameOf fails) (fun b x => P b x.1)
      (getSchedulerName scheduler) (fun _ b x => P b x.1) fun _ b x => P b x.1 := by
  refine Achieves.discard (Q := fun _ b x => P b x.1) (Achieves.perform ?_ ?_) fun _ _ _ h => h
  · intro b x a y h hcall
    rwa [← (Prod.mk.inj (faulty_ok hcall)).2]
  · intro b x ex y h hcall
    rcases faulty_error hcall with ⟨_, hy⟩ | hy
    · rwa [hy]
    · cases (Prod.mk.inj hy).1

/-- A scheduler is started, unless it is shut down. -/
theorem onSchedulers_start {scheduler : Nat} {s s' : Schedulers} {r : Except Throwable Unit}
    (h : onSchedulers nameOf (.start scheduler) s = (r, s')) :
    r = .ok () ∧ s[scheduler]?.map Scheduler.status ≠ some .shutdown ∧
      s' = setStatus .started scheduler s ∨ (∃ ex, r = .error ex) ∧ s' = s := by
  simp only [onSchedulers] at h
  split at h
  · cases h
    exact Or.inr ⟨⟨_, rfl⟩, rfl⟩
  · next hstatus =>
    cases h
    exact Or.inl ⟨rfl, hstatus, rfl⟩

/-- The scheduler that a service has got is there. -/
theorem Got.there {before service : QuartzSchedulerService} {s s' : Schedulers}
    (h : Got nameOf before s service s') :
    ∃ x, s'[(getScheduler (nameOf before.configName) s).1]? = some x := by
  have hlive := (h.live _).trans (liveName_getScheduler (nameOf before.configName) s
    (getScheduler (nameOf before.configName) s).1)
  rw [if_pos rfl, liveName] at hlive
  obtain ⟨x, hx, _⟩ := Option.map_eq_some_iff.mp hlive
  exact ⟨x, (Option.filter_eq_some_iff.mp hx).1⟩

/-- A scheduler that a service has got may be started. -/
theorem Got.started {before service : QuartzSchedulerService} {s s' : Schedulers}
    (h : Got nameOf before s service s') {scheduler : Nat}
    (hstatus : s'[scheduler]?.map Scheduler.status ≠ some .shutdown) :
    Got nameOf before s service (setStatus .started scheduler s') := by
  refine ⟨h.service, ?_, fun other => ?_⟩
  · rw [setStatus, List.length_modify, h.length]
  · rw [liveName_started hstatus, h.live]

variable (nameOf fails) in
/-- A service that has got its scheduler keeps it, whether the start fails or not. -/
theorem started_achieves (before : QuartzSchedulerService) (s : Schedulers) {scheduler : Nat}
    (hscheduler : (getScheduler (nameOf before.configName) s).1 = scheduler) :
    Achieves (serve nameOf fails) (fun b x => Got nameOf before s b x.1)
      (do
        Body.perform (F := schedulerCalls) (.start scheduler)
        getSchedulerName scheduler)
      (fun _ b x => Got nameOf before s b x.1 ∧
        x.1[scheduler]?.map Scheduler.status = some .started)
      fun _ b x => Got nameOf before s b x.1 := by
  refine Achieves.bind (Q := fun _ b x => Got nameOf before s b x.1 ∧
      x.1[scheduler]?.map Scheduler.status = some .started) (Achieves.perform ?_ ?_) fun _ =>
    (getSchedulerName_achieves (P := fun b x => Got nameOf before s b x ∧
      x[scheduler]?.map Scheduler.status = some .started) scheduler).consequence
      (fun _ _ h => h) (fun _ _ _ h => h) fun _ _ _ h => h.1
  · intro b x a y hgot hcall
    rcases onSchedulers_start (faulty_ok hcall) with ⟨_, hstatus, hy⟩ | ⟨⟨ex, hex⟩, _⟩
    · obtain ⟨z, hz⟩ := hgot.there
      rw [hscheduler] at hz
      refine ⟨hy ▸ hgot.started hstatus, ?_⟩
      rw [hy, setStatus, List.getElem?_modify, hz]
      simp
    · cases hex
  · intro b x ex y hgot hcall
    rcases faulty_error hcall with ⟨_, hy⟩ | hsound
    · rwa [hy]
    · rcases onSchedulers_start hsound with ⟨hok, _, _⟩ | ⟨_, hy⟩
      · cases hok
      · rwa [hy]

variable (nameOf fails toString) in
/-- A service that is started gets the scheduler of its name, or fails before that. -/
theorem start_achieves (service : QuartzSchedulerService) (s : Schedulers) :
    Achieves (serve nameOf fails) (fun b x => b = service ∧ x.1 = s) (start toString)
      (fun _ b x => Got nameOf service s b x.1 ∧ (service.autoStart = true →
        x.1[(getScheduler (nameOf service.configName) s).1]?.map Scheduler.status =
          some .started))
      fun _ b x => b = service ∧ x.1 = s ∨ Got nameOf service s b x.1 := by
  obtain ⟨found, hfound⟩ : ∃ found, (getScheduler (nameOf service.configName) s).1 = found :=
    ⟨_, rfl⟩
  refine Achieves.get_bind fun b => Achieves.pre (Achieves.of_fact (p := b = service)
    (P := fun b x => b = service ∧ x.1 = s) ?_) fun _ _ h => ⟨h.1 ▸ h.2.1, h.2⟩
  rintro rfl
  refine Achieves.tryCatch (Achieves.bind (Q := fun k b' x => k = found ∧ b' = b ∧
    x.1 = (getScheduler (nameOf b.configName) s).2) (Achieves.perform ?_ ?_) fun k =>
      Achieves.of_fact ?_) fun ex => rethrow_achieves
  · rintro _ x k y ⟨rfl, rfl⟩ hcall
    have hanswer := Prod.mk.inj (faulty_ok hcall)
    exact ⟨(Except.ok.inj hanswer.1).symm.trans hfound, rfl, hanswer.2.symm⟩
  · rintro _ x ex y ⟨rfl, rfl⟩ hcall
    rcases faulty_error hcall with ⟨_, hy⟩ | hy
    · exact Or.inl ⟨rfl, hy⟩
    · cases (Prod.mk.inj hy).1
  rintro rfl
  refine Achieves.bind (Q := fun _ b' x => Got nameOf b s b' x.1) (Achieves.set ?_) fun _ =>
    Achieves.bind (Q := fun _ b' x => Got nameOf b s b' x.1)
      ((getSchedulerName_achieves k).consequence (fun _ _ h => h) (fun _ _ _ h => h)
        fun _ _ _ h => Or.inr h) fun _ => Achieves.ite (fun hauto => ?_) fun hauto =>
          Achieves.pure fun _ _ h => ⟨h, fun h' => absurd h' hauto⟩
  · rintro _ x ⟨rfl, hx⟩
    exact ⟨by rw [hfound], by rw [hx], fun _ => by rw [hx]⟩
  · refine (started_achieves nameOf fails b s hfound).consequence (fun _ _ h => h)
      (fun _ _ _ h => ⟨h.1, fun _ => ?_⟩) fun _ _ _ h => Or.inr h
    rw [hfound]
    exact h.2

variable (nameOf fails toString) in
/-- A service that is stopped shuts down its scheduler, if it has one, or fails before that. -/
theorem stop_achieves (service : QuartzSchedulerService) (s : Schedulers) :
    Achieves (serve nameOf fails) (fun b x => b = service ∧ x.1 = s) (stop toString)
      (fun _ b x => b = service ∧ x.1 = service.scheduler.elim s fun k => setStatus .shutdown k s)
      fun _ b x => b = service ∧ x.1 = s := by
  refine Achieves.get_bind fun b => Achieves.pre (Achieves.of_fact (p := b = service)
    (P := fun b x => b = service ∧ x.1 = s) ?_) fun _ _ h => ⟨h.1 ▸ h.2.1, h.2⟩
  rintro rfl
  cases hscheduler : b.scheduler with
  | none => exact Achieves.pure fun _ _ h => h
  | some k =>
    refine Achieves.tryCatch (Achieves.bind (Q := fun _ b' x => b' = b ∧ x.1 = s)
      (getSchedulerName_achieves (P := fun b' x => b' = b ∧ x = s) k) fun _ =>
        Achieves.perform ?_ ?_) fun ex => rethrow_achieves
    · rintro b' x a y ⟨hb, hx⟩ hcall
      refine ⟨hb, ?_⟩
      rw [← hx]
      exact (Prod.mk.inj (faulty_ok hcall)).2.symm
    · rintro b' x ex y ⟨hb, hx⟩ hcall
      rcases faulty_error hcall with ⟨_, hy⟩ | hsound
      · exact ⟨hb, hy.trans hx⟩
      · cases (Prod.mk.inj hsound).1

end

end MySchedule.JBoss
