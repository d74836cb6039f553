import Mathlib.Logic.Function.Basic
import MySchedule.JBoss.QuartzSchedulerService

/-!
# Services over a whole run

Services are started, stopped and configured in any order, and calls fail at any of them.
Every scheduler that is not shut down is held by a service, so to stop the services is to
stop them all.
-/

namespace MySchedule.JBoss

open Interaction Java Machines

variable {ι : Type}

/-- The services of a server, the schedulers, and the number of calls so far. -/
structure Deployment (ι : Type) where
  services : ι → QuartzSchedulerService
  schedulers : Schedulers
  calls : Nat

/-- What is done to a service. -/
inductive Action (ι : Type)
  | start (i : ι)
  | stop (i : ι)
  | setConfigName (i : ι) (configName : Option String)
  | setAutoStart (i : ι) (autoStart : Bool)
  | setWaitForJobsToComplete (i : ι) (waitForJobsToComplete : Bool)
  deriving DecidableEq

section

variable [DecidableEq ι] (toString : Throwable → String) (nameOf : Option String → String)
  (fails : Nat → SchedulerCall → Option Throwable)

/-- A method of a service. -/
def Deployment.run (d : Deployment ι) (i : ι) (m : ServiceM Unit) :
    Except Throwable Unit × Deployment ι :=
  let out := Body.runWith (serve nameOf fails) m (d.services i) (d.schedulers, d.calls)
  (out.1.1, ⟨Function.update d.services i out.1.2, out.2.1, out.2.2⟩)

/-- A setter of a service. -/
def Deployment.set (d : Deployment ι) (i : ι) (service : QuartzSchedulerService) :
    Except Throwable Unit × Deployment ι :=
  (.ok (), { d with services := Function.update d.services i service })

def server : Machine (Deployment ι) (Action ι) (Except Throwable Unit) where
  step d
    | .start i => d.run nameOf fails i (start toString)
    | .stop i => d.run nameOf fails i (stop toString)
    | .setConfigName i configName => d.set i { d.services i with configName }
    | .setAutoStart i autoStart => d.set i { d.services i with autoStart }
    | .setWaitForJobsToComplete i waitForJobsToComplete =>
      d.set i { d.services i with waitForJobsToComplete }

end

variable (nameOf : Option String → String)

/-- While its scheduler is not shut down, a service is only configured for the same name. -/
def KeepsName (d : Deployment ι) : Action ι → Prop
  | .setConfigName i configName => ∀ k name, (d.services i).scheduler = some k →
    liveName d.schedulers k = some name → name = nameOf configName
  | _ => True

/-- The service has a scheduler of its name that is not shut down, and is started if it is to
be. -/
def Deployment.Serving (d : Deployment ι) (i : ι) : Prop :=
  ∃ k, (d.services i).scheduler = some k ∧
    liveName d.schedulers k = some (nameOf (d.services i).configName) ∧
    ((d.services i).autoStart = true →
      d.schedulers[k]?.map Scheduler.status = some .started)

/-- No scheduler is left behind. -/
structure Deployment.Sound (d : Deployment ι) : Prop where
  unique : ∀ k k' name, liveName d.schedulers k = some name →
    liveName d.schedulers k' = some name → k = k'
  held : ∀ k, liveName d.schedulers k ≠ none → ∃ i, (d.services i).scheduler = some k
  named : ∀ i k name, (d.services i).scheduler = some k →
    liveName d.schedulers k = some name → name = nameOf (d.services i).configName
  there : ∀ i k, (d.services i).scheduler = some k → k < d.schedulers.length

variable {toString : Throwable → String} {nameOf : Option String → String}
  {fails : Nat → SchedulerCall → Option Throwable} {d : Deployment ι} {i : ι}

/-- The scheduler that a service gets is the only one of its name; another service may have it
already, or it is new. -/
theorem Deployment.Sound.got_cases (h : d.Sound nameOf) {service : QuartzSchedulerService}
    {s' : Schedulers} (hgot : Got nameOf (d.services i) d.schedulers service s') :
    ∃ k₀, service = { d.services i with scheduler := some k₀ } ∧
      (∀ k, liveName s' k =
        if k = k₀ then some (nameOf (d.services i).configName) else liveName d.schedulers k) ∧
      (∀ k, liveName d.schedulers k = some (nameOf (d.services i).configName) → k = k₀) ∧
      (liveName d.schedulers k₀ = some (nameOf (d.services i).configName) ∨
        k₀ = d.schedulers.length) ∧
      d.schedulers.length ≤ s'.length ∧ k₀ < s'.length := by
  have hlive := fun k => (hgot.live k).trans (liveName_getScheduler _ d.schedulers k)
  refine ⟨_, hgot.service, hlive, ?_⟩
  have hthere : (getScheduler (nameOf (d.services i).configName) d.schedulers).1 < s'.length := by
    refine Nat.lt_of_not_le fun hle => ?_
    have hnone := hlive (getScheduler (nameOf (d.services i).configName) d.schedulers).1
    rw [liveName_of_le hle, if_pos rfl] at hnone
    cases hnone
  have hlength := hgot.length
  rcases getScheduler_cases (nameOf (d.services i).configName) d.schedulers with
    ⟨found, hfound, heq⟩ | ⟨hnone, heq⟩
  · rw [heq] at hlength hthere ⊢
    exact ⟨fun k hk => h.unique k found _ hk hfound, Or.inl hfound, Nat.le_of_eq hlength.symm,
      hthere⟩
  · rw [heq] at hlength hthere ⊢
    refine ⟨fun k hk => absurd hk (hnone k), Or.inr rfl, ?_, hthere⟩
    exact Nat.le_of_lt hthere

/-- A scheduler that is shut down keeps the deployment sound. -/
theorem Deployment.Sound.shutdown (h : d.Sound nameOf) (k₀ : Nat) (calls : Nat) :
    Deployment.Sound nameOf ⟨d.services, setStatus .shutdown k₀ d.schedulers, calls⟩ := by
  have hlive : ∀ {k name}, liveName (setStatus .shutdown k₀ d.schedulers) k = some name →
      liveName d.schedulers k = some name := by
    intro k name hk
    rw [liveName_shutdown] at hk
    split at hk
    · cases hk
    · exact hk
  refine ⟨fun k k' name hk hk' => h.unique k k' name (hlive hk) (hlive hk'), fun k hk => ?_,
    fun j k name hj hk => h.named j k name hj (hlive hk), fun j k hj => ?_⟩
  · obtain ⟨name, hname⟩ := Option.ne_none_iff_exists'.mp hk
    exact h.held k (Option.ne_none_iff_exists'.mpr ⟨name, hlive hname⟩)
  · rw [setStatus, List.length_modify]
    exact h.there j k hj

variable [DecidableEq ι]

/-- So does a service that gets its scheduler. -/
theorem Deployment.Sound.got (h : d.Sound nameOf) {service : QuartzSchedulerService}
    {s' : Schedulers} (hgot : Got nameOf (d.services i) d.schedulers service s') (calls : Nat) :
    Deployment.Sound nameOf ⟨Function.update d.services i service, s', calls⟩ := by
  obtain ⟨name, hname⟩ : ∃ name, nameOf (d.services i).configName = name := ⟨_, rfl⟩
  obtain ⟨k₀, hservice, hlive, hunique, hfrom, hlength, hthere⟩ := h.got_cases hgot
  rw [hname] at hlive hunique hfrom
  have hother : ∀ {j : ι}, j ≠ i → Function.update d.services i service j = d.services j :=
    fun hj => Function.update_of_ne hj ..
  refine ⟨fun k k' name' hk hk' => ?_, fun k hk => ?_, fun j k name' hj hk => ?_,
    fun j k hj => ?_⟩
  · simp only [hlive] at hk hk'
    split at hk <;> split at hk'
    · next hkk hkk' => rw [hkk, hkk']
    · next hkk _ =>
      cases hk
      rw [hkk, hunique k' hk']
    · next _ hkk' =>
      cases hk'
      rw [hkk', hunique k hk]
    · exact h.unique k k' name' hk hk'
  · simp only [hlive] at hk
    by_cases hkk : k = k₀
    · refine ⟨i, ?_⟩
      simp only [Function.update_self]
      rw [hservice, hkk]
    · rw [if_neg hkk] at hk
      obtain ⟨j, hj⟩ := h.held k hk
      by_cases hji : j = i
      · -- the service had it under the name that it asks for
        subst hji
        obtain ⟨name', hname'⟩ := Option.ne_none_iff_exists'.mp hk
        rw [h.named j k name' hj hname', hname] at hname'
        exact absurd (hunique k hname') hkk
      · refine ⟨j, ?_⟩
        simp only [hother hji]
        exact hj
  · simp only [hlive] at hk
    by_cases hji : j = i
    · subst hji
      simp only [Function.update_self] at hj ⊢
      rw [hservice] at hj ⊢
      cases hj
      rw [if_pos rfl] at hk
      rw [hname, Option.some.inj hk]
    · simp only [hother hji] at hj ⊢
      by_cases hkk : k = k₀
      · rw [if_pos hkk] at hk
        rcases hfrom with hfound | hnew
        · exact h.named j k name' hj (by rw [hkk, hfound, hk])
        · -- a scheduler that another service has is not new
          have hlt := h.there j k hj
          omega
      · rw [if_neg hkk] at hk
        exact h.named j k name' hj hk
  · by_cases hji : j = i
    · subst hji
      simp only [Function.update_self] at hj
      rw [hservice] at hj
      cases hj
      exact hthere
    · simp only [hother hji] at hj
      exact Nat.lt_of_lt_of_le (h.there j k hj) hlength

/-- And a service that is configured for the same name. -/
theorem Deployment.Sound.set (h : d.Sound nameOf) {service : QuartzSchedulerService}
    (hscheduler : service.scheduler = (d.services i).scheduler)
    (hname : ∀ k name, (d.services i).scheduler = some k →
      liveName d.schedulers k = some name → name = nameOf service.configName) :
    Deployment.Sound nameOf (d.set i service).2 := by
  have hsame : ∀ j, (Function.update d.services i service j).scheduler =
      (d.services j).scheduler := by
    intro j
    by_cases hji : j = i
    · subst hji
      rw [Function.update_self, hscheduler]
    · rw [Function.update_of_ne hji]
  refine ⟨h.unique, fun k hk => ?_, fun j k name hj hk => ?_, fun j k hj => ?_⟩
  · obtain ⟨j, hj⟩ := h.held k hk
    exact ⟨j, (hsame j).trans hj⟩
  · have hheld := (hsame j).symm.trans hj
    by_cases hji : j = i
    · subst hji
      simp only [Deployment.set, Function.update_self]
      exact hname k name hheld hk
    · simp only [Deployment.set, Function.update_of_ne hji]
      exact h.named j k name hheld hk
  · exact h.there j k ((hsame j).symm.trans hj)

variable (toString nameOf fails) in
/-- What the start of a service does. -/
theorem start_cases (d : Deployment ι) (i : ι) : ∃ r service s n,
    (server toString nameOf fails).step d (.start i) =
      (r, ⟨Function.update d.services i service, s, n⟩) ∧
    ((∃ ex, r = .error ex) ∧ service = d.services i ∧ s = d.schedulers ∨
      Got nameOf (d.services i) d.schedulers service s ∧ (r = .ok () →
        (d.services i).autoStart = true → ∃ k, service.scheduler = some k ∧
          s[k]?.map Scheduler.status = some .started)) := by
  have hout := (start_achieves nameOf fails toString (d.services i) d.schedulers).run
    (b := d.services i) (s := (d.schedulers, d.calls)) ⟨rfl, rfl⟩
  rcases hrun : Body.runWith (serve nameOf fails) (start toString) (d.services i)
    (d.schedulers, d.calls) with ⟨⟨ex | u, service⟩, s, n⟩
  · rw [hrun] at hout
    refine ⟨.error ex, service, s, n, ?_, ?_⟩
    · simp only [server, Deployment.run, hrun]
    · rcases hout with ⟨hservice, hs⟩ | hgot
      · exact Or.inl ⟨⟨ex, rfl⟩, hservice, hs⟩
      · exact Or.inr ⟨hgot, fun h => by cases h⟩
  · rw [hrun] at hout
    obtain ⟨hgot, hstarted⟩ := hout
    refine ⟨.ok u, service, s, n, ?_, Or.inr ⟨hgot, fun _ hauto => ⟨_, ?_, hstarted hauto⟩⟩⟩
    · simp only [server, Deployment.run, hrun]
    · rw [hgot.service]

variable (toString nameOf fails) in
/-- What its stop does. -/
theorem stop_cases (d : Deployment ι) (i : ι) : ∃ r s n,
    (server toString nameOf fails).step d (.stop i) = (r, ⟨d.services, s, n⟩) ∧
    ((∃ ex, r = .error ex) ∧ s = d.schedulers ∨ s = (d.services i).scheduler.elim d.schedulers
      fun k => setStatus .shutdown k d.schedulers) := by
  have hout := (stop_achieves nameOf fails toString (d.services i) d.schedulers).run
    (b := d.services i) (s := (d.schedulers, d.calls)) ⟨rfl, rfl⟩
  rcases hrun : Body.runWith (serve nameOf fails) (stop toString) (d.services i)
    (d.schedulers, d.calls) with ⟨⟨ex | u, service⟩, s, n⟩
  · rw [hrun] at hout
    obtain ⟨hservice, hs⟩ := hout
    refine ⟨.error ex, s, n, ?_, Or.inl ⟨⟨ex, rfl⟩, hs⟩⟩
    simp only [server, Deployment.run, hrun]
    rw [hservice, Function.update_eq_self]
  · rw [hrun] at hout
    obtain ⟨hservice, hs⟩ := hout
    refine ⟨.ok u, s, n, ?_, Or.inr hs⟩
    simp only [server, Deployment.run, hrun]
    rw [hservice, Function.update_eq_self]

theorem sound_step (d : Deployment ι) (a : Action ι) (ha : KeepsName nameOf d a)
    (h : d.Sound nameOf) :
    Deployment.Sound nameOf ((server toString nameOf fails).step d a).2 := by
  cases a with
  | start i =>
    obtain ⟨r, service, s, n, hstep, ⟨_, rfl, rfl⟩ | ⟨hgot, _⟩⟩ := start_cases toString
      nameOf fails d i
    · rw [hstep, Function.update_eq_self]
      exact ⟨h.unique, h.held, h.named, h.there⟩
    · rw [hstep]
      exact h.got hgot n
  | stop i =>
    obtain ⟨r, s, n, hstep, ⟨_, rfl⟩ | rfl⟩ := stop_cases toString nameOf fails d i
    · rw [hstep]
      exact ⟨h.unique, h.held, h.named, h.there⟩
    · rw [hstep]
      cases (d.services i).scheduler with
      | none => exact ⟨h.unique, h.held, h.named, h.there⟩
      | some k => exact h.shutdown k n
  | setConfigName i configName => exact h.set rfl ha
  | setAutoStart i autoStart => exact h.set rfl (h.named i)
  | setWaitForJobsToComplete i waitForJobsToComplete => exact h.set rfl (h.named i)

/-- Stops that do not fail shut down the schedulers of their services. -/
theorem after_stops {rest : List (Action ι)} (hrest : ∀ a ∈ rest, ∃ i, a = .stop i)
    (hok : (server toString nameOf fails).Throughout d rest fun d a =>
      ((server toString nameOf fails).step d a).1 = .ok ()) {k : Nat}
    (hk : liveName ((server toString nameOf fails).after d rest).schedulers k ≠ none) :
    liveName d.schedulers k ≠ none ∧
      ∀ i, .stop i ∈ rest → (d.services i).scheduler ≠ some k := by
  induction rest generalizing d with
  | nil => exact ⟨hk, fun i hi => absurd hi List.not_mem_nil⟩
  | cons a rest ih =>
    obtain ⟨i, rfl⟩ := hrest a (List.mem_cons_self ..)
    obtain ⟨hfirst, hok⟩ := Machine.throughout_cons.mp hok
    obtain ⟨r, s, n, hstep, hs⟩ := stop_cases toString nameOf fails d i
    rw [Machine.after_cons, hstep] at hk
    rw [hstep] at hfirst hok
    obtain ⟨hlive, hothers⟩ := ih (fun a ha => hrest a (List.mem_cons_of_mem _ ha)) hok hk
    rcases hs with ⟨⟨ex, rfl⟩, _⟩ | rfl
    · cases hfirst
    -- the scheduler is not that of the first service
    have hthis : liveName d.schedulers k ≠ none ∧ (d.services i).scheduler ≠ some k := by
      cases hscheduler : (d.services i).scheduler with
      | none =>
        rw [hscheduler] at hlive
        exact ⟨hlive, by simp⟩
      | some k₀ =>
        simp only [hscheduler, Option.elim, liveName_shutdown] at hlive
        by_cases hkk : k = k₀
        · exact absurd (if_pos hkk) hlive
        · rw [if_neg hkk] at hlive
          exact ⟨hlive, fun h => hkk (Option.some.inj h).symm⟩
    refine ⟨hthis.1, fun j hj => ?_⟩
    rcases List.mem_cons.mp hj with hji | hj
    · cases hji
      exact hthis.2
    · exact hothers j hj

/-- A start that returns leaves its service with a scheduler. -/
theorem start_returns (h : ((server toString nameOf fails).step d (.start i)).1 = .ok ()) :
    Deployment.Serving nameOf ((server toString nameOf fails).step d (.start i)).2 i := by
  obtain ⟨r, service, s, n, hstep, ⟨⟨ex, rfl⟩, _⟩ | ⟨hgot, hstarted⟩⟩ := start_cases toString
    nameOf fails d i
  · rw [hstep] at h
    cases h
  · rw [hstep] at h ⊢
    refine ⟨(getScheduler (nameOf (d.services i).configName) d.schedulers).1, ?_, ?_,
      fun hauto => ?_⟩
    · simp only [Function.update_self]
      rw [hgot.service]
    · simp only [Function.update_self]
      rw [hgot.live, liveName_getScheduler, if_pos rfl, hgot.service]
    · simp only [Function.update_self] at hauto
      rw [hgot.service] at hauto
      obtain ⟨k, hk, hstatus⟩ := hstarted h hauto
      rw [hgot.service] at hk
      cases hk
      exact hstatus

/-- The services as they are deployed, each without a scheduler. -/
def deployed (services : ι → QuartzSchedulerService) : Deployment ι := ⟨services, [], 0⟩

/-- Whatever services are started, stopped and configured, in whatever order, and whichever
calls fail: there is one scheduler of a name at most, every scheduler that is not shut down is
held by a service, a service whose start returns has one, and once every service has been
stopped without a failure, none is left. -/
theorem services_leave_nothing (toString : Throwable → String) (nameOf : Option String → String)
    (fails : Nat → SchedulerCall → Option Throwable) (services : ι → QuartzSchedulerService)
    (hnew : ∀ i, (services i).scheduler = none) (actions : List (Action ι))
    (hnames : (server toString nameOf fails).Throughout (deployed services) actions
      (KeepsName nameOf)) :
    let reached := (server toString nameOf fails).after (deployed services) actions
    (∀ k k' name, liveName reached.schedulers k = some name →
      liveName reached.schedulers k' = some name → k = k') ∧
    (∀ k, liveName reached.schedulers k ≠ none → ∃ i, (reached.services i).scheduler = some k) ∧
    (∀ i, ((server toString nameOf fails).step reached (.start i)).1 = .ok () →
      Deployment.Serving nameOf ((server toString nameOf fails).step reached (.start i)).2 i) ∧
    ∀ rest, (∀ a ∈ rest, ∃ i, a = Action.stop i) → (∀ i, Action.stop i ∈ rest) →
      (server toString nameOf fails).Throughout reached rest (fun d a =>
        ((server toString nameOf fails).step d a).1 = .ok ()) →
      ∀ k, liveName ((server toString nameOf fails).after reached rest).schedulers k = none := by
  intro reached
  have hsound : Deployment.Sound nameOf reached := by
    refine Machine.invariant_of (fun d a => sound_step d a) ⟨?_, ?_, ?_, ?_⟩ hnames
    · exact fun k _ _ hk => by cases (liveName_of_le (Nat.zero_le k)).symm.trans hk
    · exact fun k hk => absurd (liveName_of_le (Nat.zero_le k)) hk
    · exact fun i k _ hk => by cases (hnew i).symm.trans hk
    · exact fun i k hk => by cases (hnew i).symm.trans hk
  refine ⟨hsound.unique, hsound.held, fun i => start_returns, fun rest hrest hall hok k => ?_⟩
  by_contra hk
  obtain ⟨hlive, hothers⟩ := after_stops hrest hok hk
  obtain ⟨i, hi⟩ := hsound.held k hlive
  exact hothers i (hall i) hi

/-- Two services of one configuration; the second start fails after it has got the scheduler. -/
theorem sharedScheduler_leaves_nothing :
    let fails := fun n _ => if n = 5 then some Throwable.nullPointer else none
    let services : Bool → QuartzSchedulerService := fun _ => ⟨none, none, true, true⟩
    let reached := (server (fun _ => "") (fun _ => "") fails).after (deployed services)
      [.start true, .start false]
    ∀ k, liveName ((server (fun _ => "") (fun _ => "") fails).after reached
      [.stop true, .stop false]).schedulers k = none := by
  intro fails services reached
  refine (services_leave_nothing (fun _ => "") (fun _ => "") fails services (fun _ => rfl)
    [.start true, .start false] ?_).2.2.2 [.stop true, .stop false] ?_ ?_ ?_
  · exact Machine.throughout_cons.mpr ⟨trivial, Machine.throughout_cons.mpr
      ⟨trivial, Machine.throughout_nil⟩⟩
  · simp
  · decide
  · exact Machine.throughout_cons.mpr ⟨by decide +kernel, Machine.throughout_cons.mpr
      ⟨by decide +kernel, Machine.throughout_nil⟩⟩

end MySchedule.JBoss
