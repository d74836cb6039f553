import MySchedule.Firing.Schedule
import Mathlib.Data.Int.ConditionallyCompleteOrder
import Mathlib.Data.Int.Interval
import Mathlib.Data.Set.Finite.Basic
import Mathlib.Tactic.Linarith

/-!
# Schedules with an interval

A schedule that fires at a start, and again after each interval for a number of times or
forever, fires once more often than it repeats.
-/

namespace Timetable

/-- The instants after a start by a multiple of an interval; without a last repeat there is no
end to them. -/
def progression (start interval : ℤ) (repeats : Option ℕ) : Set ℤ :=
  {u | ∃ k : ℕ, (∀ n ∈ repeats, k ≤ n) ∧ u = start + k * interval}

/-- How often a schedule fires that repeats so many times. -/
def firings (repeats : Option ℕ) : ℕ∞ := repeats.elim ⊤ fun n => n + 1

/-- A schedule that repeats needs an interval; one that does not may do without. -/
def Spaced (interval : ℤ) (repeats : Option ℕ) : Prop :=
  0 < interval ∨ interval = 0 ∧ repeats = some 0

section

variable {s : Schedule ℤ} {start interval t : ℤ} {repeats : Option ℕ}

/-- The progression begins at its start. -/
theorem start_mem_progression : start ∈ progression start interval repeats :=
  ⟨0, fun _ _ => Nat.zero_le _, by simp⟩

/-- Nothing of it comes before its start. -/
theorem start_le_of_mem (h : 0 ≤ interval) {u : ℤ} (hu : u ∈ progression start interval repeats) :
    start ≤ u := by
  obtain ⟨k, -, rfl⟩ := hu
  have hk : 0 ≤ (k : ℤ) * interval := mul_nonneg (Int.natCast_nonneg k) h
  linarith

/-- A spacing is never negative. -/
theorem Spaced.nonneg (h : Spaced interval repeats) : 0 ≤ interval :=
  h.elim le_of_lt fun h => h.1.ge

/-- Without an interval there is the start only. -/
theorem progression_zero : progression start 0 (some 0) = {start} := by
  ext u
  constructor
  · rintro ⟨k, -, rfl⟩
    simp
  · rintro rfl
    exact start_mem_progression

/-- A progression is as long as it repeats, and one longer. -/
theorem encard_progression (hspaced : Spaced interval repeats) :
    (progression start interval repeats).encard = firings repeats := by
  rcases hspaced with h | ⟨rfl, rfl⟩
  swap
  · rw [progression_zero, Set.encard_singleton]
    rfl
  have hinj : Function.Injective fun k : ℕ => start + k * interval := by
    intro k k' hk
    have hmul : (k : ℤ) * interval = k' * interval := by simpa using hk
    exact_mod_cast mul_right_cancel₀ h.ne' hmul
  have himage : progression start interval repeats =
      (fun k : ℕ => start + k * interval) '' {k | ∀ n ∈ repeats, k ≤ n} := by
    ext u
    constructor
    · rintro ⟨k, hk, rfl⟩
      exact ⟨k, hk, rfl⟩
    · rintro ⟨k, hk, rfl⟩
      exact ⟨k, hk, rfl⟩
  rw [himage, hinj.encard_image]
  cases repeats with
  | none =>
    have huniv : {k : ℕ | ∀ n ∈ (none : Option ℕ), k ≤ n} = Set.univ := by
      ext k
      simp
    rw [huniv, Set.encard_eq_top_iff.mpr Set.infinite_univ]
    rfl
  | some n =>
    have hrange : {k : ℕ | ∀ m ∈ some n, k ≤ m} = ↑(Finset.range (n + 1)) := by
      ext k
      simp
    rw [hrange, Set.encard_coe_eq_coe_finsetCard, Finset.card_range]
    rfl

/-- Before its start a schedule has all of its firings to come, and the start comes first. -/
theorem remaining_of_progression (hs : s.IsOf (progression start interval repeats))
    (h : Spaced interval repeats) (ht : t < start) :
    s.remaining t = firings repeats ∧ s.next t = some start := by
  constructor
  · have hall : {u | s.FiresAfter t u} = progression start interval repeats := by
      ext u
      rw [Set.mem_ofPred_eq, hs.firesAfter_iff]
      exact ⟨fun hu => hu.1, fun hu => ⟨hu, ht.trans_le (start_le_of_mem h.nonneg hu)⟩⟩
    rw [Schedule.remaining, hall, encard_progression h]
  · cases hnext : s.next t with
    | none => exact absurd ht (hs.not_lt hnext start_mem_progression)
    | some u =>
      have hleast := hs.isLeast hnext
      have hle : u ≤ start := hleast.2 ⟨start_mem_progression, ht⟩
      rw [le_antisymm hle (start_le_of_mem h.nonneg hleast.1.1)]

end

/-! ## The schedule of a progression -/

section

variable {start interval : ℤ} {repeats : Option ℕ}

/-- The number of intervals until after an instant. -/
def intervalsUntil (start interval t : ℤ) : ℤ := (t - start) / interval + 1

def nextOf (start interval : ℤ) (repeats : Option ℕ) (t : ℤ) : Option ℤ :=
  if t < start then some start
  else if repeats.all (intervalsUntil start interval t ≤ ·) then
    some (start + intervalsUntil start interval t * interval)
  else none

/-- So many intervals lead past the instant. -/
theorem lt_intervalsUntil (h : 0 < interval) (t : ℤ) :
    t < start + intervalsUntil start interval t * interval := by
  have hlt := Int.lt_ediv_add_one_mul_self (t - start) h
  unfold intervalsUntil
  linarith

/-- No fewer intervals lead past the instant. -/
theorem intervalsUntil_le_iff (h : 0 < interval) {t k : ℤ} :
    intervalsUntil start interval t ≤ k ↔ t < start + k * interval := by
  rw [intervalsUntil, Int.add_one_le_iff, Int.ediv_lt_iff_lt_mul h]
  constructor <;> intro hk <;> linarith

/-- From the start on, one interval at least is needed. -/
theorem intervalsUntil_pos (h : 0 < interval) {t : ℤ} (ht : start ≤ t) :
    0 < intervalsUntil start interval t := by
  have hdiv : 0 ≤ (t - start) / interval := Int.ediv_nonneg (by linarith) h.le
  unfold intervalsUntil
  linarith

/-- No bound on the repeats, or one that allows the repeat. -/
theorem all_le_iff {k : ℤ} :
    repeats.all (k ≤ ·) = true ↔ ∀ n ∈ repeats, k ≤ (n : ℤ) := by
  cases repeats <;> simp

/-- After its start a schedule that does not repeat has ended. -/
theorem nextOf_of_zero {t : ℤ} (ht : ¬ t < start) : nextOf start 0 (some 0) t = none := by
  rw [nextOf, if_neg ht]
  simp [intervalsUntil]

/-- The next fire time is the least of the later ones. -/
theorem nextOf_isLeast (hspaced : Spaced interval repeats) {t u : ℤ}
    (hnext : nextOf start interval repeats t = some u) :
    IsLeast {v | v ∈ progression start interval repeats ∧ t < v} u := by
  by_cases ht : t < start
  · rw [nextOf, if_pos ht] at hnext
    cases hnext
    exact ⟨⟨start_mem_progression, ht⟩, fun v hv => start_le_of_mem hspaced.nonneg hv.1⟩
  rcases hspaced with h | ⟨rfl, rfl⟩
  · rw [nextOf, if_neg ht] at hnext
    split at hnext
    · next hall =>
      cases hnext
      have hpos := intervalsUntil_pos h (not_lt.mp ht)
      refine ⟨⟨⟨(intervalsUntil start interval t).toNat, fun n hn => ?_, ?_⟩,
        lt_intervalsUntil h t⟩, ?_⟩
      · have hle := all_le_iff.mp hall n hn
        omega
      · rw [Int.toNat_of_nonneg hpos.le]
      · rintro _ ⟨⟨k, -, rfl⟩, hk⟩
        have hle := mul_le_mul_of_nonneg_right ((intervalsUntil_le_iff h).mpr hk) h.le
        linarith
    · cases hnext
  · rw [nextOf_of_zero ht] at hnext
    cases hnext

/-- Where there is no next fire time, no later one is left. -/
theorem nextOf_none (hspaced : Spaced interval repeats) {t v : ℤ}
    (hnext : nextOf start interval repeats t = none)
    (hv : v ∈ progression start interval repeats) : ¬ t < v := by
  by_cases ht : t < start
  · rw [nextOf, if_pos ht] at hnext
    cases hnext
  rcases hspaced with h | ⟨rfl, rfl⟩
  · rw [nextOf, if_neg ht] at hnext
    split at hnext
    · cases hnext
    · next hall =>
      obtain ⟨k, hk, rfl⟩ := hv
      intro hlt
      refine hall (all_le_iff.mpr fun n hn => ?_)
      have hle := (intervalsUntil_le_iff h).mpr hlt
      exact hle.trans (by exact_mod_cast hk n hn)
  · rw [progression_zero] at hv
    rwa [Set.mem_singleton_iff.mp hv]

/-- Every interval from a start on, as often as it repeats. -/
def every (start interval : ℤ) (repeats : Option ℕ)
    (h : Spaced interval repeats) : Schedule ℤ where
  next := nextOf start interval repeats
  lt_next hnext := (nextOf_isLeast h hnext).1.2
  ended {t u} hnext htu := by
    cases hu : nextOf start interval repeats u with
    | none => rfl
    | some v =>
      have hleast := (nextOf_isLeast h hu).1
      exact absurd (htu.trans_lt hleast.2) (nextOf_none h hnext hleast.1)

/-- The schedule fires exactly at the progression. -/
theorem every_isOf (h : Spaced interval repeats) :
    (every start interval repeats h).IsOf (progression start interval repeats) where
  isLeast hnext := nextOf_isLeast h hnext
  not_lt hnext hv := nextOf_none h hnext hv

end

end Timetable
