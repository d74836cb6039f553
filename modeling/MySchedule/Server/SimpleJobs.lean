import MySchedule.Firing.Progressions
import MySchedule.Server.Servers

/-!
# How often the jobs of a server fire

A trigger fires once more often than it repeats, and `createSimpleJob` takes the number of
firings. Whatever the surroundings do, a job that it schedules fires as often as it was told
to, from the delay on.
-/

namespace MySchedule.Server

open Interaction Java Keyed Timetable

/-- The repeats of a trigger; -1 stands for forever. -/
def SimpleTrigger.repeats (trigger : SimpleTrigger) : Option ℕ :=
  if trigger.repeatCount = -1 then none else some trigger.repeatCount.toNat

/-- A trigger fires at its start time and after each interval, as often as it repeats. One that
repeats without an interval is refused by the scheduler. -/
def FiresAsBuilt (scheduleOf : SimpleTrigger → Schedule ℤ) : Prop :=
  ∀ trigger start, trigger.startTime = some start →
    Spaced trigger.repeatInterval trigger.repeats →
    (scheduleOf trigger).IsOf (progression start trigger.repeatInterval trigger.repeats)

/-- The number of firings that a repeat count asks `createSimpleJob` for. -/
def askedFor (repeatCount : ℤ) : ℕ∞ :=
  if repeatCount = -1 then ⊤ else if repeatCount = 0 then 1 else repeatCount.toNat

section

variable (toString : Throwable → String) (name : String) (startDelay interval repeatCount : ℤ)
  (jobClass : String) (data : Option (LinkedMap String (Option Value)))

/-- Only the trigger that was built is scheduled, by the clock that was read. -/
def builtFrom (s : List (Event serverCalls)) (c : ServerCall) : Prop :=
  ∀ job trigger, c = .scheduleJob job trigger → job.key = jobKey name ∧
    ∃ now : ℤ, ⟨.currentTimeMillis, .ok now⟩ ∈ s ∧
      SimpleTrigger.build (triggerKey name) none (some (addLong now startDelay)) interval
        (adjustRepeatCount repeatCount) = .ok trigger

theorem createSimpleJob_obedient :
    Obedient (builtFrom name startDelay interval repeatCount) (fun _ _ => True)
      (createSimpleJob toString name startDelay interval repeatCount jobClass data)
      (fun _ _ _ => True) fun _ _ _ => True := by
  refine Obedient.bind (Q := fun now _ s => ⟨.currentTimeMillis, .ok now⟩ ∈ s)
    (Obedient.perform (fun _ _ _ => ?_) (fun _ s now _ => ?_) fun _ _ _ _ => trivial) fun now =>
      Obedient.bind (Q := fun trigger _ s => ⟨.currentTimeMillis, .ok now⟩ ∈ s ∧
        SimpleTrigger.build (triggerKey name) none (some (addLong now startDelay)) interval
          (adjustRepeatCount repeatCount) = .ok trigger) ?_ fun trigger => ?_
  · rintro job trigger ⟨⟩
  · exact List.mem_append_right s (List.mem_singleton_self _)
  · cases hbuild : SimpleTrigger.build (triggerKey name) none (some (addLong now startDelay))
      interval (adjustRepeatCount repeatCount) with
    | error ex => exact Obedient.throw fun _ _ _ => trivial
    | ok trigger => exact Obedient.pure fun _ _ hnow => ⟨hnow, rfl⟩
  · refine Obedient.tryCatch (E := fun _ _ _ => True) (Obedient.discard (Q := fun _ _ _ => True)
      (Obedient.perform ?_ (fun _ _ _ _ => trivial) fun _ _ _ _ => trivial)
      fun _ _ _ _ => trivial) fun ex => Obedient.ite (fun _ => Obedient.throw fun _ _ _ => trivial)
        fun _ => Obedient.throw fun _ _ _ => trivial
    rintro _ s ⟨hnow, hbuild⟩ job trigger' ⟨⟩
    exact ⟨rfl, now, hnow, hbuild⟩

/-- A count below -1 is refused. -/
theorem le_of_build {key : Registration.TriggerKey} {job : Option Registration.JobKey}
    {start : Option ℤ} {trigger : SimpleTrigger}
    (h : SimpleTrigger.build key job start interval (adjustRepeatCount repeatCount) =
      .ok trigger) : -1 ≤ repeatCount := by
  by_contra hlt
  have hadjust : adjustRepeatCount repeatCount = repeatCount := if_neg (by omega)
  rw [hadjust, SimpleTrigger.build] at h
  split at h
  · cases h
  · rw [if_pos ⟨by omega, by omega⟩] at h
    cases h

/-- The repeats that are built in are one less than the firings asked for. -/
theorem firings_eq_askedFor {trigger : SimpleTrigger} (h : -1 ≤ repeatCount)
    (htrigger : trigger.repeatCount = adjustRepeatCount repeatCount) :
    firings trigger.repeats = askedFor repeatCount := by
  rw [SimpleTrigger.repeats, htrigger, adjustRepeatCount, askedFor]
  rcases h.eq_or_lt with rfl | hlt
  · rfl
  · by_cases hzero : repeatCount = 0
    · subst hzero
      rfl
    · have hpos : repeatCount > 0 := by omega
      have hsucc : repeatCount.toNat = (repeatCount - 1).toNat + 1 := by omega
      rw [if_pos hpos, if_neg (by omega), if_neg (by omega), if_neg hzero, hsucc]
      rfl

/-- A job that is to fire once does not repeat. -/
theorem spaced_of_asked {trigger : SimpleTrigger} (h : -1 ≤ repeatCount)
    (htrigger : trigger.repeatCount = adjustRepeatCount repeatCount)
    (hinterval : 0 < interval ∨ interval = 0 ∧ askedFor repeatCount = 1) :
    Spaced interval trigger.repeats := by
  refine hinterval.imp_right fun ⟨hzero, honce⟩ => ⟨hzero, ?_⟩
  rw [← firings_eq_askedFor repeatCount h htrigger] at honce
  cases hrepeats : trigger.repeats with
  | none =>
    rw [hrepeats] at honce
    cases honce
  | some n =>
    rw [hrepeats] at honce
    have hn : ((n + 1 : ℕ) : ℕ∞) = ((1 : ℕ) : ℕ∞) := honce
    have hsucc := Nat.cast_injective hn
    rw [Nat.succ_injective hsucc]

/-- Whatever the surroundings do, a job that `createSimpleJob` schedules fires as often as it was
asked to: for ever if that is -1, once if it is 0. It fires first when the delay is over, where
clock and delay are added as `long`s. If it fires once, it needs no interval. -/
theorem createSimpleJob_fires (scheduleOf : SimpleTrigger → Schedule ℤ)
    (hfires : FiresAsBuilt scheduleOf)
    (hinterval : 0 < interval ∨ interval = 0 ∧ askedFor repeatCount = 1)
    (respond : List (Event serverCalls) → (c : ServerCall) →
      Except Throwable (serverCalls.Answer c)) (server : QuartzServer) :
    let trace := (Body.runWith (traced respond)
      (createSimpleJob toString name startDelay interval repeatCount jobClass data) server []).2
    ∀ e ∈ trace, ∀ job trigger, e.call = .scheduleJob job trigger →
      job.key = jobKey name ∧ -1 ≤ repeatCount ∧ ∃ now : ℤ, ⟨.currentTimeMillis, .ok now⟩ ∈ trace ∧
        ∀ before < addLong now startDelay,
          (scheduleOf trigger).remaining before = askedFor repeatCount ∧
          (scheduleOf trigger).next before = some (addLong now startDelay) := by
  intro trace e he job trigger hcall
  obtain ⟨hobeys, -⟩ := (createSimpleJob_obedient toString name startDelay interval repeatCount
    jobClass data).run_traced respond (b := server) trivial
  obtain ⟨before, after, hsplit⟩ := List.append_of_mem he
  obtain ⟨hjob, now, hnow, hbuild⟩ := hobeys before e after hsplit job trigger hcall
  have htrigger := build_eq_ok hbuild
  have hcount := le_of_build interval repeatCount hbuild
  refine ⟨hjob, hcount, now, ?_, fun t ht => ?_⟩
  · rw [hsplit]
    exact List.mem_append_left _ hnow
  · have hrepeats : trigger.repeatCount = adjustRepeatCount repeatCount := by rw [htrigger]
    have hspaced : Spaced trigger.repeatInterval trigger.repeats := by
      have hbuilt : trigger.repeatInterval = interval := by rw [htrigger]
      rw [hbuilt]
      exact spaced_of_asked interval repeatCount hcount hrepeats hinterval
    have hof := hfires trigger (addLong now startDelay) (by rw [htrigger]) hspaced
    rw [← firings_eq_askedFor repeatCount hcount hrepeats]
    exact remaining_of_progression hof hspaced ht

end

instance (interval : ℤ) (repeats : Option ℕ) : Decidable (Spaced interval repeats) :=
  inferInstanceAs (Decidable (_ ∨ _))

/-- The schedule of a trigger that the scheduler accepts. -/
def scheduleOf (trigger : SimpleTrigger) : Schedule ℤ :=
  if h : Spaced trigger.repeatInterval trigger.repeats then
    every (trigger.startTime.getD 0) trigger.repeatInterval trigger.repeats h
  else every 0 1 none (.inl Int.one_pos)

theorem scheduleOf_firesAsBuilt : FiresAsBuilt scheduleOf := by
  intro trigger start hstart hspaced
  rw [scheduleOf, dif_pos hspaced, hstart]
  exact every_isOf hspaced

/-- The calls that schedule a job by a clock at 0, to fire after five seconds. -/
def scheduled (interval repeatCount : ℤ) : List (Event serverCalls) :=
  (Body.runWith (traced fun _ c => .ok (smoothly c)) (createSimpleJob (fun _ => "") "job1" 5000
    interval repeatCount "SleepJob" none) (.new none) []).2

def jobScheduled (trigger : SimpleTrigger) : Event serverCalls :=
  ⟨.scheduleJob ⟨jobKey "job1", "SleepJob", false, putAll .empty []⟩ trigger, .ok ⟨⟩⟩

/-- A job that is asked to fire three times, and one that is to fire once and has no interval. -/
theorem threeTimes_and_once_fire :
    (∃ trigger, jobScheduled trigger ∈ scheduled 20000 3 ∧
      (scheduleOf trigger).remaining 0 = 3 ∧ (scheduleOf trigger).next 0 = some 5000) ∧
    ∃ trigger, jobScheduled trigger ∈ scheduled 0 1 ∧
      (scheduleOf trigger).remaining 0 = 1 ∧ (scheduleOf trigger).next 0 = some 5000 := by
  have hfires : ∀ interval repeatCount trigger,
      (0 < interval ∨ interval = 0 ∧ askedFor repeatCount = 1) →
      scheduled interval repeatCount =
        [⟨.currentTimeMillis, .ok (0 : ℤ)⟩, jobScheduled trigger] →
      jobScheduled trigger ∈ scheduled interval repeatCount ∧
        (scheduleOf trigger).remaining 0 = askedFor repeatCount ∧
        (scheduleOf trigger).next 0 = some 5000 := by
    intro interval repeatCount trigger hinterval htrace
    have hmem : jobScheduled trigger ∈ scheduled interval repeatCount := by simp [htrace]
    obtain ⟨-, -, now, hnow, hall⟩ := createSimpleJob_fires (fun _ => "") "job1" 5000 interval
      repeatCount "SleepJob" none scheduleOf scheduleOf_firesAsBuilt hinterval
      (fun _ c => .ok (smoothly c)) (.new none) (jobScheduled trigger) hmem _ _ rfl
    change _ ∈ scheduled interval repeatCount at hnow
    rw [htrace] at hnow
    rcases List.mem_cons.mp hnow with hread | hlater
    · cases hread
      have hsum : addLong 0 5000 = 5000 := addLong_eq (by decide) (by decide)
      rw [hsum] at hall
      exact ⟨hmem, hall 0 (by decide)⟩
    · have hcall : ServerCall.currentTimeMillis = (jobScheduled trigger).call :=
        congrArg Event.call (List.mem_singleton.mp hlater)
      cases hcall
  exact ⟨⟨⟨triggerKey "job1", none, some 5000, 20000, 2⟩, hfires 20000 3 _ (by decide) rfl⟩,
    ⟨triggerKey "job1", none, some 5000, 0, 0⟩, hfires 0 1 _ (.inr ⟨rfl, rfl⟩) rfl⟩

end MySchedule.Server
