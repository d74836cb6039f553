import MySchedule.Interaction.History
import MySchedule.Registration.Scheduler
import MySchedule.Keyed.PutAll

/-!
# A server process

`QuartzServer.run` is a template: it creates the scheduler, lets a subclass
prepare it, and then starts it, with a hook that shuts it down when the process
exits, or shuts it down at once. Whatever the subclass does short of running the
scheduler itself, and whatever fails, a process takes one of seven courses.
-/

namespace MySchedule.Server

open Interaction Java Keyed
open Registration (JobKey TriggerKey FireTime)

/-- What the servers put into a job data map. -/
inductive Value
  | text (s : String)
  | long (n : Int)
  deriving DecidableEq, Repr

/-- A job detail, with its data. -/
structure JobDetail where
  key : JobKey
  jobClass : String
  durable : Bool
  jobDataMap : LinkedMap String (Option Value)

/-- A simple trigger. Without a start time it starts when it is built; without a job key it is
for the job it is scheduled with. -/
structure SimpleTrigger where
  key : TriggerKey
  jobKey : Option JobKey
  startTime : Option Int
  repeatInterval : Int
  repeatCount : Int
  deriving DecidableEq, Repr

/-- The calls of a server on the scheduler, its factory, the runtime and the clock. -/
inductive ServerCall
  | getScheduler (config : Option String)
  | addShutdownHook
  | start
  | shutdown (waitForJobsToComplete : Bool)
  | currentTimeMillis
  | scheduleJob (job : JobDetail) (trigger : SimpleTrigger)
  | addJob (job : JobDetail) (replace : Bool)
  | scheduleJobs (triggersAndJobs : List (JobDetail × List SimpleTrigger)) (replace : Bool)
  | getJobGroupNames
  | getJobKeys (group : String)
  | deleteJob (key : JobKey)

def ServerCall.Answer : ServerCall → Type
  | .currentTimeMillis => Int
  | .scheduleJob _ _ => FireTime
  | .getJobGroupNames => List String
  | .getJobKeys _ => List JobKey
  | .deleteJob _ => Bool
  | _ => Unit

abbrev serverCalls : Effects := ⟨ServerCall, ServerCall.Answer, Throwable⟩

/-- The calls that create, start or stop a scheduler, or arrange for that. -/
def ServerCall.onLifecycle : ServerCall → Bool
  | .getScheduler _ | .addShutdownHook | .start | .shutdown _ => true
  | _ => false

/-- The fields of a server, its scheduler null or not, and the hooks it has registered. -/
structure QuartzServer where
  config : Option String
  scheduler : Bool
  hooks : Nat
  deriving DecidableEq, Repr

abbrev ServerM (α : Type) : Type := Body serverCalls QuartzServer α

/-- A server just constructed. -/
def QuartzServer.new (config : Option String) : QuartzServer := ⟨config, false, 0⟩

def scheduler.start : ServerM Unit := Body.perform (F := serverCalls) .start

def scheduler.shutdown (waitForJobsToComplete : Bool) : ServerM Unit :=
  Body.perform (F := serverCalls) (.shutdown waitForJobsToComplete)

section

variable (toString : Throwable → String)

/-- `new RuntimeException(e)`. -/
def runtimeException (ex : Throwable) : Throwable :=
  .caused (.runtimeException "RuntimeException") (some (toString ex)) ex

/-- `catch (SchedulerException e) { throw new RuntimeException(e); }`. -/
def rethrow {α : Type} (ex : Throwable) : ServerM α :=
  if ex.isSchedulerException then throw (runtimeException toString ex) else throw ex

/-- The scheduler of the configuration, or the default one without a configuration. -/
def init : ServerM Unit := do
  let server ← get
  tryCatch (do
    Body.perform (F := serverCalls) (.getScheduler server.config)
    set { server with scheduler := true }) (rethrow toString)

/-- `if (scheduler == null) init();`. -/
def initIfNull : ServerM Unit := do
  if !(← get).scheduler then init toString

def registerShutdown : ServerM Unit := do
  Body.perform (F := serverCalls) .addShutdownHook
  let server ← get
  set { server with hooks := server.hooks + 1 }

/-- `QuartzServer.run`, over what a subclass does before and after the start. -/
def run (beforeSchedulerStart : ServerM Bool) (afterSchedulerStart : ServerM Unit) :
    ServerM Unit := do
  initIfNull toString
  tryCatch (do
    let cont ← beforeSchedulerStart
    if cont then
      registerShutdown
      scheduler.start
      afterSchedulerStart
    else scheduler.shutdown true) (rethrow toString)

/-- The body of the hook's thread. -/
def shutdownHook : ServerM Unit := tryCatch (scheduler.shutdown true) (rethrow toString)

/-- The exit of the process: every registered hook runs, in a thread of its own. -/
def exit : ServerM Unit := do
  (List.range (← get).hooks).forM fun _ =>
    tryCatch (shutdownHook toString) fun _ => pure ()

/-- A process: `main`, whose exception ends its thread and is returned here, and the exit. -/
def process (main : ServerM Unit) : ServerM (Except Throwable Unit) := do
  let ended ← tryCatch (do
    main
    return .ok ()) fun ex => return .error ex
  exit toString
  return ended

/-- `QuartzServer.run` of the 1.8 copy, which prepares nothing. -/
def Quartz18.run : ServerM Unit := do
  initIfNull toString
  registerShutdown
  tryCatch scheduler.start fun ex =>
    if ex.isSchedulerException then
      throw (.caused (.runtimeException "RuntimeException")
        (some "Failed to start scheduler.") ex)
    else throw ex

end

/-- The courses of a process: how `main` ended, and the lifecycle calls with their answers.
`answers` are what the subclass may say on whether to start. -/
inductive Course (config : Option String) (answers : Bool → Prop) :
    Except Throwable Unit → List (Event serverCalls) → Prop
  | noScheduler (ex thrown : Throwable) :
    Course config answers (.error thrown) [⟨.getScheduler config, .error ex⟩]
  | abandoned (thrown : Throwable) :
    Course config answers (.error thrown) [⟨.getScheduler config, .ok ()⟩]
  | declined (h : answers false) :
    Course config answers (.ok ())
      [⟨.getScheduler config, .ok ()⟩, ⟨.shutdown true, .ok ()⟩]
  | notShutDown (h : answers false) (ex thrown : Throwable) :
    Course config answers (.error thrown)
      [⟨.getScheduler config, .ok ()⟩, ⟨.shutdown true, .error ex⟩]
  | noHook (h : answers true) (ex thrown : Throwable) :
    Course config answers (.error thrown)
      [⟨.getScheduler config, .ok ()⟩, ⟨.addShutdownHook, .error ex⟩]
  | notStarted (h : answers true) (ex thrown : Throwable) (r : Except Throwable Unit) :
    Course config answers (.error thrown)
      [⟨.getScheduler config, .ok ()⟩, ⟨.addShutdownHook, .ok ()⟩, ⟨.start, .error ex⟩,
        ⟨.shutdown true, r⟩]
  | served (h : answers true) (ended r : Except Throwable Unit) :
    Course config answers ended
      [⟨.getScheduler config, .ok ()⟩, ⟨.addShutdownHook, .ok ()⟩, ⟨.start, .ok ()⟩,
        ⟨.shutdown true, r⟩]

/-- A server that declines and ends normally is shut down and was never started. -/
theorem Course.of_declined {config : Option String} {answers : Bool → Prop}
    {calls : List (Event serverCalls)} (h : Course config answers (.ok ()) calls)
    (hno : ¬ answers true) :
    calls = [⟨.getScheduler config, .ok ()⟩, ⟨.shutdown true, .ok ()⟩] := by
  cases h with
  | declined => rfl
  | served hyes => exact absurd hyes hno

/-- A server that asks for the start and ends normally is started, and shut down at the exit. -/
theorem Course.of_served {config : Option String} {answers : Bool → Prop}
    {calls : List (Event serverCalls)} (h : Course config answers (.ok ()) calls)
    (hyes : ¬ answers false) :
    ∃ r, calls = [⟨.getScheduler config, .ok ()⟩, ⟨.addShutdownHook, .ok ()⟩,
      ⟨.start, .ok ()⟩, ⟨.shutdown true, r⟩] := by
  cases h with
  | declined hno => exact absurd hno hyes
  | served _ _ r => exact ⟨r, rfl⟩

/-- The lifecycle calls of a trace. -/
def lifecycle (s : List (Event serverCalls)) : List (Event serverCalls) :=
  s.filter (·.call.onLifecycle)

/-- A further lifecycle call comes last. -/
theorem lifecycle_snoc (s : List (Event serverCalls)) {e : Event serverCalls}
    (he : e.call.onLifecycle = true) : lifecycle (s ++ [e]) = lifecycle s ++ [e] := by
  simp [lifecycle, he]

/-- Other calls are no part of the lifecycle. -/
theorem lifecycle_snoc_other (s : List (Event serverCalls)) {e : Event serverCalls}
    (he : e.call.onLifecycle = false) : lifecycle (s ++ [e]) = lifecycle s := by
  simp [lifecycle, he]

/-- What a subclass does that does not run the scheduler itself and answers as it may. -/
abbrev Prepares {α : Type} (answers : α → Prop) (m : ServerM α) : Prop :=
  m.Bystander (fun c : ServerCall => c.onLifecycle = false) answers

/-- No call is made on a scheduler that is still null. -/
def guarded (config : Option String) (s : List (Event serverCalls)) (c : ServerCall) : Prop :=
  c = .getScheduler config ∧ s = [] ∨ ⟨.getScheduler config, .ok ()⟩ ∈ s

section

variable {config : Option String} {answers : Bool → Prop} {toString : Throwable → String}
  {r : Except Throwable Unit}

/-- Only the exit is missing from a course that ends in `r`. -/
structure Ready (config : Option String) (answers : Bool → Prop) (r : Except Throwable Unit)
    (b : QuartzServer) (s : List (Event serverCalls)) : Prop where
  hooks : b.hooks = 0 ∨ b.hooks = 1
  course : ∀ q, Course config answers r
    (lifecycle s ++ if b.hooks = 0 then [] else [⟨.shutdown true, q⟩])
  created : b.hooks = 0 ∨ ⟨.getScheduler config, .ok ()⟩ ∈ s

/-- After a number of lifecycle calls, with a scheduler. -/
structure Reached (config : Option String) (hooks : Nat) (calls : List (Event serverCalls))
    (b : QuartzServer) (s : List (Event serverCalls)) : Prop where
  hooks : b.hooks = hooks
  calls : lifecycle s = ⟨.getScheduler config, .ok ()⟩ :: calls

variable {hooks : Nat} {calls : List (Event serverCalls)} {b : QuartzServer}
  {s : List (Event serverCalls)}

/-- The scheduler was created. -/
theorem Reached.created (h : Reached config hooks calls b s) :
    ⟨.getScheduler config, .ok ()⟩ ∈ s := by
  have hmem : ⟨.getScheduler config, .ok ()⟩ ∈ lifecycle s := h.calls ▸ List.mem_cons_self
  exact (List.mem_filter.mp hmem).1

/-- One more lifecycle call. -/
theorem Reached.snoc (h : Reached config hooks calls b s) {e : Event serverCalls}
    (he : e.call.onLifecycle = true) : Reached config hooks (calls ++ [e]) b (s ++ [e]) :=
  ⟨h.hooks, by rw [lifecycle_snoc s he, h.calls, List.cons_append]⟩

/-- Without a hook there is no more to come. -/
theorem Reached.ready_zero (h : Reached config 0 calls b s)
    (hc : Course config answers r (⟨.getScheduler config, .ok ()⟩ :: calls)) :
    Ready config answers r b s := by
  refine ⟨Or.inl h.hooks, fun q => ?_, Or.inl h.hooks⟩
  rw [if_pos h.hooks, List.append_nil, h.calls]
  exact hc

/-- With a hook the scheduler will be shut down. -/
theorem Reached.ready_one (h : Reached config 1 calls b s)
    (hc : ∀ q, Course config answers r
      (⟨.getScheduler config, .ok ()⟩ :: (calls ++ [⟨.shutdown true, q⟩]))) :
    Ready config answers r b s := by
  refine ⟨Or.inr h.hooks, fun q => ?_, Or.inr h.created⟩
  have hne : b.hooks ≠ 0 := by
    rw [h.hooks]
    decide
  rw [if_neg hne, h.calls]
  exact hc q

/-- A server process that keeps to its guard. -/
abbrev Serving {α : Type} (config : Option String)
    (P : QuartzServer → List (Event serverCalls) → Prop) (m : ServerM α)
    (Q : α → QuartzServer → List (Event serverCalls) → Prop)
    (E : Throwable → QuartzServer → List (Event serverCalls) → Prop) : Prop :=
  Obedient (guarded config) P m Q E

/-- A body that only runs the scheduler once it is there. -/
theorem perform_serving {c : ServerCall} (hc : c.onLifecycle = true)
    {Q : serverCalls.Answer c → QuartzServer → List (Event serverCalls) → Prop}
    {E : Throwable → QuartzServer → List (Event serverCalls) → Prop}
    (hQ : ∀ b s a, Reached config hooks (calls ++ [⟨c, .ok a⟩]) b s → Q a b s)
    (hE : ∀ b s ex, Reached config hooks (calls ++ [⟨c, .error ex⟩]) b s → E ex b s) :
    Serving config (Reached config hooks calls) (Body.perform c) Q E :=
  Obedient.perform (fun _ _ h => Or.inr h.created) (fun b _ a h => hQ b _ a (h.snoc hc))
    fun b _ ex h => hE b _ ex (h.snoc hc)

/-- Whatever is thrown from a place, it is no scheduler exception. -/
theorem rethrow_serving {α : Type} {ex : Throwable}
    {P : QuartzServer → List (Event serverCalls) → Prop}
    {Q : α → QuartzServer → List (Event serverCalls) → Prop}
    {E : Throwable → QuartzServer → List (Event serverCalls) → Prop}
    (h : ∀ b s thrown, P b s → thrown.isSchedulerException = false → E thrown b s) :
    Serving config P (rethrow toString ex) Q E := by
  unfold rethrow
  refine Obedient.ite (fun _ => Obedient.throw fun b s hp => h b s _ hp rfl) fun hex =>
    Obedient.throw fun b s hp => h b s ex hp (by simpa using hex)

/-- How `main` may end. -/
def MainEnds (config : Option String) (answers : Bool → Prop) (r : Except Throwable Unit)
    (b : QuartzServer) (s : List (Event serverCalls)) : Prop :=
  Ready config answers r b s ∧ ∀ ex, r = .error ex → ex.isSchedulerException = false

/-- `init` creates the scheduler, or ends the process with what that throws. -/
theorem init_serving :
    Serving config (fun b s => b = .new config ∧ s = []) (init toString)
      (fun _ => Reached config 0 []) fun ex => MainEnds config answers (.error ex) := by
  refine Obedient.get_bind fun b => Obedient.tryCatch
    (E := fun ex b s => b.hooks = 0 ∧ lifecycle s = [⟨.getScheduler config, .error ex⟩])
    (Obedient.bind (Q := fun _ b' s => b' = b ∧ b = .new config ∧
      lifecycle s = [⟨.getScheduler config, .ok ()⟩]) ?_ fun _ => Obedient.set ?_)
    fun ex => rethrow_serving ?_
  · by_cases hb : b = .new config
    · subst hb
      refine Obedient.perform ?_ ?_ ?_
      · rintro _ s ⟨_, _, rfl⟩
        exact Or.inl ⟨rfl, rfl⟩
      · rintro _ s u ⟨rfl, _, rfl⟩
        exact ⟨rfl, rfl, rfl⟩
      · rintro _ s ex ⟨rfl, _, rfl⟩
        exact ⟨rfl, rfl⟩
    · exact fun b' s h => absurd (h.1.1 ▸ h.1.2.1) hb
  · rintro _ s ⟨rfl, rfl, hs⟩
    exact ⟨rfl, hs⟩
  · rintro b s thrown ⟨hhooks, hs⟩ hthrown
    refine ⟨⟨Or.inl hhooks, fun q => ?_, Or.inl hhooks⟩, fun ex' he => ?_⟩
    · rw [if_pos hhooks, List.append_nil, hs]
      exact .noScheduler ex thrown
    · cases he
      exact hthrown

/-- A server just constructed has no scheduler yet. -/
theorem initIfNull_serving :
    Serving config (fun b s => b = .new config ∧ s = []) (initIfNull toString)
      (fun _ => Reached config 0 []) fun ex => MainEnds config answers (.error ex) := by
  refine Obedient.get_bind fun b => ?_
  by_cases hnew : b = .new config
  · subst hnew
    exact init_serving.pre fun _ _ h => ⟨h.1, h.2.2⟩
  · exact fun _ _ h => absurd (h.1.1 ▸ h.1.2.1) hnew

/-- `registerShutdown` adds the hook, or throws with the hook not counted. -/
theorem registerShutdown_serving {E : Throwable → QuartzServer → List (Event serverCalls) → Prop}
    (hE : ∀ b s ex, Reached config 0 [⟨.addShutdownHook, .error ex⟩] b s → E ex b s) :
    Serving config (Reached config 0 []) registerShutdown
      (fun _ => Reached config 1 [⟨.addShutdownHook, .ok ()⟩]) E := by
  refine (perform_serving (Q := fun _ => Reached config 0 [⟨.addShutdownHook, .ok ()⟩]) rfl
    (fun _ _ _ h => h) hE).bind fun _ => Obedient.get_bind fun b => Obedient.set ?_
  rintro _ s ⟨rfl, h⟩
  exact ⟨by simp [h.hooks], h.calls⟩

/-- The exit runs the hook, if there is one. -/
theorem exit_serving :
    Serving config (Ready config answers r) (exit toString)
      (fun _ _ s => Course config answers r (lifecycle s)) fun _ _ _ => False := by
  refine Obedient.get_bind fun b => ?_
  by_cases hzero : b.hooks = 0
  · rw [hzero]
    refine Obedient.pure ?_
    rintro _ s ⟨rfl, h⟩
    simpa [hzero] using h.course (.ok ())
  · by_cases hone : b.hooks = 1
    · rw [hone]
      refine Obedient.bind (Q := fun _ _ s => Course config answers r (lifecycle s)) ?_
        fun _ => Obedient.pure fun _ _ h => h
      have hcourse : ∀ (q : Except Throwable Unit) b' s,
          b' = b ∧ Ready config answers r b' s →
            Course config answers r (lifecycle (s ++ [⟨.shutdown true, q⟩])) := by
        rintro q _ s ⟨rfl, h⟩
        rw [lifecycle_snoc s rfl]
        simpa [hone] using h.course q
      refine Obedient.tryCatch (E := fun _ _ s => Course config answers r (lifecycle s))
        (Obedient.tryCatch (E := fun _ _ s => Course config answers r (lifecycle s)) ?_ fun ex =>
          rethrow_serving fun _ _ _ h _ => h) fun ex => Obedient.pure fun _ _ h => h
      refine Obedient.perform ?_ (fun b' s u h => hcourse (.ok u) b' s h)
        fun b' s ex h => hcourse (.error ex) b' s h
      rintro _ s ⟨rfl, h⟩
      exact Or.inr (h.created.resolve_left hzero)
    · rintro b' s ⟨⟨rfl, h⟩, _⟩
      exact absurd h.hooks (by simp [hzero, hone])

/-- A process whose `main` ends as it may takes one of the courses. -/
theorem process_serving {main : ServerM Unit} {X : Except Throwable Unit → Prop}
    (hmain : Serving config (fun b s => b = .new config ∧ s = []) main
      (fun _ b s => Ready config answers (.ok ()) b s ∧ X (.ok ()))
      fun ex b s => Ready config answers (.error ex) b s ∧ X (.error ex)) :
    Serving config (fun b s => b = .new config ∧ s = []) (process toString main)
      (fun r _ s => Course config answers r (lifecycle s) ∧ X r) fun _ _ _ => False := by
  refine Obedient.bind (Q := fun r b s => Ready config answers r b s ∧ X r) (Obedient.tryCatch
    (hmain.bind fun _ => Obedient.pure fun _ _ h => h)
      fun ex => Obedient.pure fun _ _ h => h) fun r => ?_
  by_cases hr : X r
  · refine Obedient.bind (Q := fun _ _ s => Course config answers r (lifecycle s))
      (exit_serving.pre fun _ _ h => h.1) fun _ => Obedient.pure fun _ _ h => ⟨h, hr⟩
  · exact fun _ _ h => absurd h.1.2 hr

variable {before : ServerM Bool} {after : ServerM Unit}

/-- What a subclass prepares leaves the place reached. -/
theorem prepares_serving {α : Type} {said : α → Prop} {m : ServerM α} (hm : Prepares said m) :
    Serving config (Reached config hooks calls) m
      (fun a b s => Reached config hooks calls b s ∧ said a)
      fun _ => Reached config hooks calls := by
  refine Obedient.of_bystander hm (fun b s c h _ => Or.inr h.created) ?_
  intro b s e h he
  exact ⟨h.hooks, by rw [lifecycle_snoc_other s he, h.calls]⟩

/-- `run` goes through the lifecycle, whichever call throws. -/
theorem run_serving (hb : Prepares answers before) (ha : Prepares (fun _ => True) after) :
    Serving config (fun b s => b = .new config ∧ s = []) (run toString before after)
      (fun _ => MainEnds config answers (.ok ()))
      fun ex => MainEnds config answers (.error ex) := by
  refine initIfNull_serving.bind fun _ => Obedient.tryCatch
    (E := fun _ b s => ∀ thrown, Ready config answers (.error thrown) b s) ?_ ?_
  · refine Obedient.bind (Q := fun cont b s => Reached config 0 [] b s ∧ answers cont)
      ((prepares_serving hb).consequence (fun _ _ h => h) (fun _ _ _ h => h)
        fun _ b s h thrown => h.ready_zero (.abandoned thrown)) fun cont => ?_
    by_cases hcont : answers cont
    · cases cont with
      | true =>
        refine (Obedient.bind (Q := fun _ => Reached config 1 [⟨.addShutdownHook, .ok ()⟩])
          (registerShutdown_serving fun b s ex h thrown => h.ready_zero (.noHook hcont ex thrown))
          fun _ => Obedient.bind (Q := fun _ => Reached config 1
            [⟨.addShutdownHook, .ok ()⟩, ⟨.start, .ok ()⟩]) (perform_serving rfl
              (fun _ _ _ h => h) fun b s ex h thrown =>
                h.ready_one fun q => .notStarted hcont ex thrown q) fun _ => ?_).pre
          fun _ _ h => h.1
        refine (prepares_serving ha).consequence (fun _ _ h => h) (fun _ b s h => ?_)
          fun _ b s h thrown => h.ready_one fun q => .served hcont (.error thrown) q
        exact ⟨h.1.ready_one fun q => .served hcont (.ok ()) q, fun _ he => by cases he⟩
      | false =>
        refine (perform_serving rfl (fun b s u h => ?_) fun b s ex h thrown =>
          h.ready_zero (.notShutDown hcont ex thrown)).pre fun _ _ h => h.1
        exact ⟨h.ready_zero (.declined hcont), fun _ he => by cases he⟩
    · exact fun _ _ h => absurd h.1.2 hcont
  · refine fun ex => rethrow_serving fun b s thrown h hthrown => ⟨h thrown, ?_⟩
    rintro _ ⟨⟩
    exact hthrown

end

/-- To start the scheduler. -/
def Starts (cont : Bool) : Prop := cont = true

/-- The 1.8 server asks nobody. -/
theorem Quartz18.run_serving {config : Option String} {toString : Throwable → String} :
    Serving config (fun b s => b = .new config ∧ s = []) (Quartz18.run toString)
      (fun _ b s => Ready config Starts (.ok ()) b s)
      fun ex b s => Ready config Starts (.error ex) b s := by
  have hstart : Starts true := rfl
  refine Obedient.bind (initIfNull_serving.consequence (fun _ _ h => h) (fun _ _ _ h => h)
    fun _ _ _ h => h.1) fun _ => Obedient.bind (registerShutdown_serving fun b s ex h =>
      h.ready_zero (.noHook hstart ex ex)) fun _ => Obedient.tryCatch
        (E := fun _ b s => ∀ thrown, Ready config Starts (.error thrown) b s)
        (perform_serving rfl (fun b s u h => h.ready_one fun q => .served hstart (.ok ()) q)
          fun b s ex h thrown => h.ready_one fun q => .notStarted hstart ex thrown q) fun ex => ?_
  exact Obedient.ite (fun _ => Obedient.throw fun _ _ h => h _)
    fun _ => Obedient.throw fun _ _ h => h ex

section

variable (toString : Throwable → String)
  (respond : List (Event serverCalls) → (c : ServerCall) → Except Throwable (serverCalls.Answer c))
  (config : Option String)

variable {toString respond config}

variable (toString respond config)

end

/-- Answers with which nothing fails. -/
def smoothly : (c : ServerCall) → serverCalls.Answer c
  | .currentTimeMillis => (0 : Int)
  | .scheduleJob _ _ => (⟨⟩ : FireTime)
  | .getJobGroupNames => ([] : List String)
  | .getJobKeys _ => ([] : List JobKey)
  | .deleteJob _ => true
  | .getScheduler _ | .addShutdownHook | .start | .shutdown _ => ()
  | .addJob _ _ | .scheduleJobs _ _ => ()

end MySchedule.Server
