import MySchedule.Firing.Schedule
import MySchedule.Java.Throwable
import Mathlib.Data.Int.ConditionallyCompleteOrder

/-!
# The next fire times, three times over

`getNextFireTimes` of either `TriggerHelper` and of `SchedulerTemplate` ask a trigger for
one fire time after another. They differ in what they append: the instant before, the new
one even when it is null, or the new one and then nothing once it is null.
-/

namespace MySchedule.Firing

open Java Timetable

variable {α : Type*} [Preorder α] (s : Schedule α) (clock : ℕ → α)

/-- `getFireTimeAfter`, and `getNextValidTimeAfter` of a cron expression; a null argument
stands for `now`. -/
def getFireTimeAfter (now : α) (afterTime : Option α) : Option α := s.next (afterTime.getD now)

/-- `new ArrayList<Date>(maxCount)`. -/
def newArrayList (maxCount : ℤ) : Except Throwable (List (Option α)) :=
  if maxCount < 0 then
    .error (.plain (.runtimeException "IllegalArgumentException")
      (some ("Illegal Capacity: " ++ toString maxCount)))
  else .ok []

namespace Quartz18

/-- The loop with `left` passes to go. The start is `clock 0`, and a call after `count` others
reads `clock (count + 1)` where its argument is null. -/
def loop : ℕ → ℕ → Option α → List (Option α) → List (Option α)
  | 0, _, _, result => result
  | left + 1, count, nextDate, result =>
    let fireTime := getFireTimeAfter s (clock (count + 1)) nextDate
    loop left (count + 1) fireTime (result ++ [nextDate])

/-- `TriggerHelper.getNextFireTimes` for Quartz 1.8; it starts at `new Date()`. -/
def getNextFireTimes (maxCount : ℤ) : Except Throwable (List (Option α)) := do
  let result ← newArrayList maxCount
  return loop s clock maxCount.toNat 0 (some (clock 0)) result

end Quartz18

namespace Quartz20

def loop : ℕ → ℕ → Option α → List (Option α) → List (Option α)
  | 0, _, _, result => result
  | left + 1, count, nextDate, result =>
    let nextDate := getFireTimeAfter s (clock (count + 1)) nextDate
    loop left (count + 1) nextDate (result ++ [nextDate])

/-- `TriggerHelper.getNextFireTimes` for Quartz 2.0. -/
def getNextFireTimes (maxCount : ℤ) : Except Throwable (List (Option α)) := do
  let result ← newArrayList maxCount
  return loop s clock maxCount.toNat 0 (some (clock 0)) result

end Quartz20

namespace SchedulerTemplate

def loop : ℕ → ℕ → Option α → List (Option α) → List (Option α)
  | 0, _, _, list => list
  | left + 1, count, nextDate, list =>
    let fireTime := getFireTimeAfter s (clock count) nextDate
    let list := list ++ [fireTime]
    match fireTime with
    | none => list
    | some fireTime => loop left (count + 1) (some fireTime) list

/-- `SchedulerTemplate.getNextFireTimes`; the list has no initial capacity. -/
def getNextFireTimes (startTime : Option α) (maxCount : ℤ) :
    Except Throwable (List (Option α)) :=
  .ok (loop s clock maxCount.toNat 0 startTime [])

end SchedulerTemplate

/-- What `getNextFireTimes` is for: exactly the first fire times after `start`, up to
`maxCount`, and no null entry. -/
def ReturnsFirst (start : α) (maxCount : ℤ) (result : Except Throwable (List (Option α))) : Prop :=
  ∃ times : List α, result = .ok (times.map some) ∧ s.AreFirst start maxCount.toNat times

variable {s clock} {start t : α} {maxCount : ℤ} {left count : ℕ}
  {nextDate : Option α} {result list : List (Option α)}

/-- To return the first fire times is to return the upcoming ones. -/
theorem returnsFirst_iff_eq_ok {run : Except Throwable (List (Option α))} :
    ReturnsFirst s start maxCount run ↔
      run = .ok ((s.upcoming maxCount.toNat start).map some) := by
  simp only [ReturnsFirst, Schedule.areFirst_iff]
  constructor
  · rintro ⟨times, h, rfl⟩
    exact h
  · intro h
    exact ⟨_, h, rfl⟩

omit [Preorder α] in
/-- A negative count is refused before the loop. -/
theorem allocated_eq_ok_iff {run : List (Option α) → List (Option α)} :
    (do return run (← newArrayList maxCount) : Except Throwable (List (Option α))) = .ok list ↔
      0 ≤ maxCount ∧ run [] = list := by
  by_cases h : 0 ≤ maxCount
  · rw [newArrayList, if_neg (not_lt.mpr h), and_iff_right h]
    exact ⟨Except.ok.inj, congrArg Except.ok⟩
  · rw [newArrayList, if_pos (not_le.mp h)]
    exact iff_of_false (by rintro ⟨⟩) fun hrun => h hrun.1

namespace Quartz18

/-- The loop only adds to its list. -/
theorem prefix_loop : result <+: loop s clock left count nextDate result := by
  induction left generalizing count nextDate result with
  | zero => exact List.prefix_rfl
  | succ left ih => exact (List.prefix_append result [nextDate]).trans ih

/-- The instant that the loop starts from is the first it appends. -/
theorem mem_loop (h : 0 < left) : nextDate ∈ loop s clock left count nextDate result := by
  cases left with
  | zero => cases h
  | succ left =>
    rw [loop]
    exact prefix_loop.subset (List.mem_append_right result (List.mem_singleton.mpr rfl))

/-- While there are fire times the loop is one behind them. -/
theorem loop_eq (h : (left : ℕ∞) ≤ s.remaining t) :
    loop s clock (left + 1) count (some t) result =
      result ++ (t :: s.upcoming left t).map some := by
  induction left generalizing count t result with
  | zero => rfl
  | succ left ih =>
    cases hnext : s.next t with
    | none => exact absurd h (Schedule.not_succ_le_remaining hnext)
    | some u =>
      have hrest := (Schedule.succ_le_remaining_iff hnext).mp h
      rw [loop, getFireTimeAfter, Option.getD_some, hnext, ih hrest, Schedule.upcoming, hnext]
      simp

/-- The 1.8 list is exact only where nothing is asked for. -/
theorem returnsFirst_iff :
    ReturnsFirst s (clock 0) maxCount (getNextFireTimes s clock maxCount) ↔ maxCount = 0 := by
  rw [returnsFirst_iff_eq_ok, getNextFireTimes, allocated_eq_ok_iff]
  constructor
  · rintro ⟨hcount, hloop⟩
    by_contra hne
    have hstart : some (clock 0) ∈ (s.upcoming maxCount.toNat (clock 0)).map some := by
      rw [← hloop]
      exact mem_loop (by omega)
    rw [List.mem_map_of_injective (Option.some_injective α)] at hstart
    exact Schedule.notMem_upcoming hstart
  · rintro rfl
    exact ⟨le_rfl, rfl⟩

end Quartz18

namespace Quartz20

/-- The loop only adds to its list. -/
theorem prefix_loop : result <+: loop s clock left count nextDate result := by
  induction left generalizing count nextDate result with
  | zero => exact List.prefix_rfl
  | succ left ih => exact (List.prefix_append result _).trans ih

theorem loop_eq (h : (left : ℕ∞) ≤ s.remaining t) :
    loop s clock left count (some t) result = result ++ (s.upcoming left t).map some := by
  induction left generalizing count t result with
  | zero => simp [loop, Schedule.upcoming]
  | succ left ih =>
    cases hnext : s.next t with
    | none => exact absurd h (Schedule.not_succ_le_remaining hnext)
    | some u =>
      have hrest := (Schedule.succ_le_remaining_iff hnext).mp h
      rw [loop, getFireTimeAfter, Option.getD_some, hnext, ih hrest, Schedule.upcoming, hnext]
      simp

/-- Past the last fire time a null is appended. -/
theorem none_mem_loop (h : ¬ (left : ℕ∞) ≤ s.remaining t) :
    none ∈ loop s clock left count (some t) result := by
  induction left generalizing count t result with
  | zero => simp at h
  | succ left ih =>
    rw [loop, getFireTimeAfter, Option.getD_some]
    cases hnext : s.next t with
    | none => exact prefix_loop.subset (List.mem_append_right _ (List.mem_singleton.mpr rfl))
    | some u => exact ih fun hrest => h ((Schedule.succ_le_remaining_iff hnext).mpr hrest)

/-- Where the schedule has ended by the clock, every call gives null. -/
theorem loop_of_ended (ht : s.next t = none) (hclock : ∀ i, t ≤ clock i)
    (hdate : t ≤ nextDate.getD (clock (count + 1))) :
    loop s clock left count nextDate result = result ++ List.replicate left none := by
  induction left generalizing count nextDate result with
  | zero => simp [loop]
  | succ left ih =>
    have hnull : getFireTimeAfter s (clock (count + 1)) nextDate = none := s.ended ht hdate
    have hnow : t ≤ (none : Option α).getD (clock (count + 1 + 1)) := hclock _
    rw [loop, hnull, ih hnow, List.append_assoc, List.replicate_succ, List.singleton_append]

/-- The 2.0 list is exact where as many times remain as were asked for. -/
theorem returnsFirst_iff :
    ReturnsFirst s (clock 0) maxCount (getNextFireTimes s clock maxCount) ↔
      0 ≤ maxCount ∧ (maxCount.toNat : ℕ∞) ≤ s.remaining (clock 0) := by
  rw [returnsFirst_iff_eq_ok, getNextFireTimes, allocated_eq_ok_iff, and_congr_right_iff]
  intro _
  constructor
  · intro hloop
    by_contra hfew
    have hnull : none ∈ loop s clock maxCount.toNat 0 (some (clock 0)) [] :=
      none_mem_loop hfew
    rw [hloop] at hnull
    simp at hnull
  · intro h
    rw [loop_eq h, List.nil_append]

end Quartz20

namespace SchedulerTemplate

/-- The fire times that come next, and one null where they end before the count does. -/
theorem loop_eq : loop s clock left count nextDate list =
    list ++ (s.upcoming left (nextDate.getD (clock count))).map some ++
      if (s.upcoming left (nextDate.getD (clock count))).length < left then [none] else [] := by
  induction left generalizing count nextDate list with
  | zero => simp [loop, Schedule.upcoming]
  | succ left ih =>
    rw [loop, getFireTimeAfter, Schedule.upcoming]
    cases hnext : s.next (nextDate.getD (clock count)) with
    | none => simp
    | some u => simp [ih]

/-- So is the template's, which may also be asked for a negative number. -/
theorem returnsFirst_iff {startTime : Option α} :
    ReturnsFirst s (startTime.getD (clock 0)) maxCount
      (getNextFireTimes s clock startTime maxCount) ↔
        (maxCount.toNat : ℕ∞) ≤ s.remaining (startTime.getD (clock 0)) := by
  rw [returnsFirst_iff_eq_ok, getNextFireTimes, Except.ok.injEq, loop_eq, List.nil_append,
    ← Schedule.length_upcoming_eq_iff]
  have hlength : (s.upcoming maxCount.toNat (startTime.getD (clock 0))).length ≤
      maxCount.toNat := Schedule.length_upcoming_le
  split
  · next hfew => simp [hfew.ne]
  · next hall => simp [hlength.antisymm (not_lt.mp hall)]

/-- The instant that the loop starts from is not in its list. -/
theorem notMem_loop : some t ∉ loop s clock left count (some t) [] := by
  rw [loop_eq, List.nil_append, Option.getD_some, List.mem_append,
    List.mem_map_of_injective (Option.some_injective α)]
  rintro (h | h)
  · exact Schedule.notMem_upcoming h
  · split at h <;> simp at h

/-- A trigger with a set of fire times, of which no more than asked for are left: the list has
all of them. -/
theorem mem_loop_iff {α : Type*} [LinearOrder α] [LocallyFiniteOrder α] {s : Schedule α}
    {times : Set α} (hs : s.IsOf times) {clock : ℕ → α} {nextDate : Option α}
    {list : List (Option α)} {u : α}
    (hfew : s.remaining (nextDate.getD (clock count)) ≤ left) :
    some u ∈ loop s clock left count nextDate list ↔
      some u ∈ list ∨ u ∈ times ∧ nextDate.getD (clock count) < u := by
  have hnull : some u ∉ if (s.upcoming left (nextDate.getD (clock count))).length < left
      then [none] else [] := by
    split <;> simp
  rw [loop_eq, List.mem_append, or_iff_left hnull, List.mem_append,
    List.mem_map_of_injective (Option.some_injective α), Schedule.mem_upcoming_iff hfew,
    hs.firesAfter_iff]

end SchedulerTemplate

/-- From one start the three versions agree only when no fire time is asked for. -/
theorem versions_agree_iff :
    (Quartz18.getNextFireTimes s clock maxCount = Quartz20.getNextFireTimes s clock maxCount ∧
      Quartz20.getNextFireTimes s clock maxCount =
        SchedulerTemplate.getNextFireTimes s clock (some (clock 0)) maxCount) ↔
      maxCount = 0 := by
  constructor
  · rintro ⟨h20, htemplate⟩
    rw [htemplate, SchedulerTemplate.getNextFireTimes, Quartz18.getNextFireTimes,
      allocated_eq_ok_iff] at h20
    by_contra hne
    have hstart : some (clock 0) ∈
        Quartz18.loop s clock maxCount.toNat 0 (some (clock 0)) [] :=
      Quartz18.mem_loop (by omega)
    rw [h20.2] at hstart
    exact SchedulerTemplate.notMem_loop hstart
  · rintro rfl
    exact ⟨rfl, rfl⟩

/-- The 1.8 helper returns the first fire times only when none is asked for, the other two
only while the schedule goes on. So the three agree only on the empty list. -/
theorem getNextFireTimes_exact_iff (s : Schedule α) (clock : ℕ → α) (startTime : Option α)
    (maxCount : ℤ) :
    (ReturnsFirst s (clock 0) maxCount (Quartz18.getNextFireTimes s clock maxCount) ↔
      maxCount = 0) ∧
    (ReturnsFirst s (clock 0) maxCount (Quartz20.getNextFireTimes s clock maxCount) ↔
      0 ≤ maxCount ∧ (maxCount.toNat : ℕ∞) ≤ s.remaining (clock 0)) ∧
    (ReturnsFirst s (startTime.getD (clock 0)) maxCount
      (SchedulerTemplate.getNextFireTimes s clock startTime maxCount) ↔
        (maxCount.toNat : ℕ∞) ≤ s.remaining (startTime.getD (clock 0))) ∧
    ((Quartz18.getNextFireTimes s clock maxCount = Quartz20.getNextFireTimes s clock maxCount ∧
      Quartz20.getNextFireTimes s clock maxCount =
        SchedulerTemplate.getNextFireTimes s clock (some (clock 0)) maxCount) ↔
      maxCount = 0) :=
  ⟨Quartz18.returnsFirst_iff, Quartz20.returnsFirst_iff, SchedulerTemplate.returnsFirst_iff,
    versions_agree_iff⟩

/-- A schedule that fires at every instant up to 5. -/
def untilFive : Schedule ℤ where
  next t := if t < 5 then some (t + 1) else none
  lt_next h := by
    obtain ⟨_, he⟩ := Option.ite_none_right_eq_some.mp h
    cases he
    exact Int.lt_succ _
  ended h hle := by
    simp only [ite_eq_right_iff, reduceCtorEq, imp_false] at h ⊢
    omega

/-- At 4 the only fire time left is 5. Of two times asked for, the helpers return the start and
it, or it and a null. -/
theorem getNextFireTimes_not_exact :
    ¬ ReturnsFirst untilFive 4 2 (Quartz18.getNextFireTimes untilFive (4 + ·) 2) ∧
    ¬ ReturnsFirst untilFive 4 2 (Quartz20.getNextFireTimes untilFive (4 + ·) 2) ∧
    ¬ ReturnsFirst untilFive 4 2
      (SchedulerTemplate.getNextFireTimes untilFive (4 + ·) (some 4) 2) := by
  have h18 : Quartz18.getNextFireTimes untilFive (4 + ·) 2 = .ok [some 4, some 5] := rfl
  have h20 : Quartz20.getNextFireTimes untilFive (4 + ·) 2 = .ok [some 5, none] := rfl
  have htemplate : SchedulerTemplate.getNextFireTimes untilFive (4 + ·) (some 4) 2 =
    .ok [some 5, none] := rfl
  rw [h18, h20, htemplate]
  simp only [returnsFirst_iff_eq_ok, Except.ok.injEq]
  decide

end MySchedule.Firing
