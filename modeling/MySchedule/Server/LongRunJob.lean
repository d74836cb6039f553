import MySchedule.Java.Throwable
import Mathlib.Data.Int.Notation
import Mathlib.Data.Nat.Find
import Mathlib.Order.Basic

/-!
# Jobs that run until they are stopped

A long run job checks again and again whether its time is over or its stop file is there, and
sleeps between the checks. If the clock goes on by the time that it sleeps, it ends after 361
sleeps at the latest, and it does not go on once a check has found the stop file.
-/

namespace MySchedule.Server

open Java

/-- What a job finds at each tick: the clock, whether the stop file exists, and whether a sleep
is interrupted. Each pass of a job takes one tick. The clock counts from 1970 on, where no
difference of two `long`s overflows. -/
structure World where
  currentTimeMillis : ℕ → ℤ
  stopFile : ℕ → Bool
  interrupted : ℕ → Bool

/-- How a run of the job ends. -/
inductive Ending
  | timedOut
  | stopFileFound
  | failed (ex : Throwable)
  deriving DecidableEq, Repr

namespace LongRunJob

/-- 30 minutes. -/
def timeoutPeriod : ℤ := 30 * 60 * 1000

/-- 5 seconds. -/
def fileCheckFrequency : ℤ := 5 * 1000

/-- `new RuntimeException(e)` for the exception of an interrupted sleep. -/
def interruption : Throwable :=
  .caused (.runtimeException "RuntimeException")
    (some "java.lang.InterruptedException: sleep interrupted")
    (.plain (.checkedException "InterruptedException") (some "sleep interrupted"))

variable (world : World) (jobStartedTime : ℤ)

/-- One pass of the loop, at a tick. -/
def pass (tick : ℕ) : Option Ending :=
  let elapseTime := world.currentTimeMillis tick - jobStartedTime
  if elapseTime > timeoutPeriod then some .timedOut
  else if world.stopFile tick then some .stopFileFound
  else if world.interrupted tick then some (.failed interruption)
  else none

/-- The loop from a tick on, with so many passes at most; where it ends, and how. -/
def loop : ℕ → ℕ → Option (ℕ × Ending)
  | 0, _ => none
  | left + 1, tick =>
    match pass world jobStartedTime tick with
    | some ending => some (tick, ending)
    | none => loop left (tick + 1)

/-- `execute` from a tick on; the job was made at `jobStartedTime`. -/
def execute (passes start : ℕ) : Option (ℕ × Ending) := loop world jobStartedTime passes start

/-- A tick at which the job has run for longer than it may. -/
def TimeOver (tick : ℕ) : Prop :=
  timeoutPeriod < world.currentTimeMillis tick - jobStartedTime

/-- A tick with nothing to end the job: it is in time, there is no stop file, and it sleeps
undisturbed. -/
structure GoesOn (tick : ℕ) : Prop where
  inTime : ¬ TimeOver world jobStartedTime tick
  noFile : world.stopFile tick = false
  asleep : world.interrupted tick = false

/-- What makes the job end at a tick in each of the ways it can. The time is looked at first, and
it sleeps only where there is no stop file. -/
def Ends (tick : ℕ) : Ending → Prop
  | .timedOut => TimeOver world jobStartedTime tick
  | .stopFileFound => ¬ TimeOver world jobStartedTime tick ∧ world.stopFile tick = true
  | .failed ex => ¬ TimeOver world jobStartedTime tick ∧ world.stopFile tick = false ∧
      world.interrupted tick = true ∧ ex = interruption

/-- The job ends at the first tick that makes it end. -/
structure EndsAt (start last : ℕ) (ending : Ending) : Prop where
  le : start ≤ last
  earlier : ∀ tick, start ≤ tick → tick < last → GoesOn world jobStartedTime tick
  ends : Ends world jobStartedTime last ending

variable {world} {jobStartedTime} {start last passes tick : ℕ} {ending ending' : Ending}

instance : Decidable (TimeOver world jobStartedTime tick) :=
  inferInstanceAs (Decidable (timeoutPeriod < _))

theorem pass_eq : pass world jobStartedTime tick =
    if TimeOver world jobStartedTime tick then some .timedOut
    else if world.stopFile tick then some .stopFileFound
    else if world.interrupted tick then some (.failed interruption)
    else none := rfl

/-- A pass ends the job by what it finds. -/
theorem pass_eq_some_iff : pass world jobStartedTime tick = some ending ↔
    Ends world jobStartedTime tick ending := by
  rw [pass_eq]
  by_cases htime : TimeOver world jobStartedTime tick
  · rw [if_pos htime]
    cases ending <;> simp [Ends, htime]
  · rw [if_neg htime]
    cases hfile : world.stopFile tick with
    | true => cases ending <;> simp [Ends, htime, hfile]
    | false =>
      cases hsleep : world.interrupted tick with
      | true => cases ending <;> simp [Ends, htime, hfile, hsleep, eq_comm]
      | false => cases ending <;> simp [Ends, htime, hfile, hsleep]

/-- A pass goes on to the next one just where nothing ends the job. -/
theorem pass_eq_none_iff : pass world jobStartedTime tick = none ↔
    GoesOn world jobStartedTime tick := by
  rw [pass_eq]
  constructor
  · intro h
    split_ifs at h with htime hfile hsleep
    exact ⟨htime, by simpa using hfile, by simpa using hsleep⟩
  · rintro ⟨htime, hfile, hsleep⟩
    rw [if_neg htime, hfile, hsleep]
    rfl

/-- A tick that ends the job is none to go on at. -/
theorem Ends.not_goesOn (h : Ends world jobStartedTime tick ending) :
    ¬ GoesOn world jobStartedTime tick := by
  intro hon
  have hpass := pass_eq_some_iff.mpr h
  rw [pass_eq_none_iff.mpr hon] at hpass
  cases hpass

/-- There is one way at most to end at a tick. -/
theorem Ends.unique (h : Ends world jobStartedTime tick ending)
    (h' : Ends world jobStartedTime tick ending') : ending = ending' := by
  have hpass := pass_eq_some_iff.mpr h
  rw [pass_eq_some_iff.mpr h'] at hpass
  exact (Option.some.inj hpass).symm

/-- There is one tick at most at which the job ends. -/
theorem EndsAt.le_of_ends (h : EndsAt world jobStartedTime start last ending)
    (hle : start ≤ tick) (hends : Ends world jobStartedTime tick ending') : last ≤ tick :=
  Nat.le_of_not_lt fun hlt => hends.not_goesOn (h.earlier tick hle hlt)

/-- The loop stops where the job ends, if its passes reach that far. -/
theorem loop_eq_some_iff : loop world jobStartedTime passes start = some (last, ending) ↔
    EndsAt world jobStartedTime start last ending ∧ last < start + passes := by
  induction passes generalizing start with
  | zero =>
    refine ⟨fun h => (by cases h), fun ⟨h, hlt⟩ => ?_⟩
    exact absurd h.le (by omega)
  | succ left ih =>
    rw [loop]
    cases hpass : pass world jobStartedTime start with
    | some first =>
      have hfirst := pass_eq_some_iff.mp hpass
      constructor
      · intro h
        cases h
        exact ⟨⟨le_rfl, fun tick h₁ h₂ => by omega, hfirst⟩, by omega⟩
      · rintro ⟨h, -⟩
        obtain rfl : last = start := by
          by_contra hne
          exact hfirst.not_goesOn (h.earlier start le_rfl (by have := h.le; omega))
        rw [hfirst.unique h.ends]
    | none =>
      have hon := pass_eq_none_iff.mp hpass
      change loop world jobStartedTime left (start + 1) = _ ↔ _
      rw [ih]
      constructor
      · rintro ⟨h, hlt⟩
        refine ⟨⟨by have := h.le; omega, fun tick h₁ h₂ => ?_, h.ends⟩, by omega⟩
        rcases h₁.eq_or_lt with rfl | h₁
        · exact hon
        · exact h.earlier tick h₁ h₂
      · rintro ⟨h, hlt⟩
        have hne : start ≠ last := by
          rintro rfl
          exact h.ends.not_goesOn hon
        have hle := h.le
        exact ⟨⟨by omega, fun tick h₁ h₂ => h.earlier tick (by omega) h₂, h.ends⟩, by omega⟩

/-- The clock goes on while a job sleeps. -/
def Advances (world : World) : Prop :=
  ∀ tick, world.currentTimeMillis tick + fileCheckFrequency ≤ world.currentTimeMillis (tick + 1)

/-- The clock is later by the time of all sleeps in between. -/
theorem elapsed_after (h : Advances world) (start i : ℕ) :
    world.currentTimeMillis start + i * fileCheckFrequency ≤
      world.currentTimeMillis (start + i) := by
  induction i with
  | zero => simp
  | succ i ih =>
    have hstep := h (start + i)
    rw [← Nat.add_assoc]
    unfold fileCheckFrequency at ih hstep ⊢
    omega

/-- The time is over after 361 sleeps. -/
theorem timeOver_after (h : Advances world)
    (hmade : jobStartedTime ≤ world.currentTimeMillis start) :
    TimeOver world jobStartedTime (start + 361) := by
  have helapsed := elapsed_after h start 361
  unfold TimeOver timeoutPeriod
  unfold fileCheckFrequency at helapsed
  omega

/-- The job ends by a tick that makes it end. -/
theorem endsAt_of_ends (hle : start ≤ tick) (h : Ends world jobStartedTime tick ending) :
    ∃ last ending, last ≤ tick ∧ EndsAt world jobStartedTime start last ending := by
  have hex : ∃ i, pass world jobStartedTime (start + i) ≠ none := by
    refine ⟨tick - start, ?_⟩
    rw [Nat.add_sub_cancel' hle, pass_eq_some_iff.mpr h]
    simp
  obtain ⟨ending, hending⟩ := Option.ne_none_iff_exists'.mp (Nat.find_spec hex)
  have hmin : Nat.find hex ≤ tick - start := by
    refine Nat.find_min' hex ?_
    rw [Nat.add_sub_cancel' hle, pass_eq_some_iff.mpr h]
    simp
  refine ⟨start + Nat.find hex, ending, by omega, Nat.le_add_right .., ?_,
    pass_eq_some_iff.mp hending⟩
  intro tick h₁ h₂
  have hnot := Nat.find_min hex (m := tick - start) (by omega)
  rw [Nat.add_sub_cancel' h₁, not_not] at hnot
  exact pass_eq_none_iff.mp hnot

/-- A long run job ends after 361 sleeps at the latest. It times out at a check that finds the
time over, stops at one that finds its stop file, and fails in a sleep that is interrupted, at
the first tick with any of these; and its loop returns that tick as soon as it may pass so
often. -/
theorem execute_ends (world : World) (jobStartedTime : ℤ) (start : ℕ) (h : Advances world)
    (hmade : jobStartedTime ≤ world.currentTimeMillis start) :
    ∃ last ending, EndsAt world jobStartedTime start last ending ∧ last ≤ start + 361 ∧
      ∀ passes, execute world jobStartedTime passes start =
        if last < start + passes then some (last, ending) else none := by
  have htimedOut : Ends world jobStartedTime (start + 361) .timedOut := timeOver_after h hmade
  obtain ⟨last, ending, hlast, hends⟩ :=
    endsAt_of_ends (Nat.le_add_right start 361) htimedOut
  refine ⟨last, ending, hends, hlast, fun passes => ?_⟩
  split
  · next hlt => exact loop_eq_some_iff.mpr ⟨hends, hlt⟩
  · next hlt =>
    cases hrun : execute world jobStartedTime passes start with
    | none => rfl
    | some result =>
      obtain ⟨hends', hlt'⟩ := loop_eq_some_iff.mp hrun
      have hle := hends.le_of_ends hends'.le hends'.ends
      omega

/-- A stop file that comes at the fourth check. -/
def stoppedWorld : World := ⟨fun tick => 5000 * tick, fun tick => 3 ≤ tick, fun _ => false⟩

/-- The job finds it then, and not earlier. -/
theorem stopped_ends : execute stoppedWorld 0 4 0 = some (3, .stopFileFound) := by
  have hadvances : Advances stoppedWorld := by
    intro tick
    unfold stoppedWorld fileCheckFrequency
    dsimp only
    omega
  obtain ⟨last, ending, hends, -, hrun⟩ := execute_ends stoppedWorld 0 0 hadvances (by decide)
  have hthird : Ends stoppedWorld 0 3 .stopFileFound := ⟨by unfold TimeOver; decide, rfl⟩
  have hle : last ≤ 3 := hends.le_of_ends (by decide) hthird
  have hearlier : ∀ tick < 3, GoesOn stoppedWorld 0 tick := by
    intro tick hlt
    refine ⟨?_, decide_eq_false (by omega), rfl⟩
    unfold TimeOver timeoutPeriod stoppedWorld
    dsimp only
    omega
  obtain rfl : last = 3 := by
    by_contra hne
    exact hends.ends.not_goesOn (hearlier last (by omega))
  rw [hrun, if_pos (by decide), hends.ends.unique hthird]

end LongRunJob

end MySchedule.Server
