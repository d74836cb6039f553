import Mathlib.Data.ENat.Lattice
import Mathlib.Data.Set.Card
import Mathlib.Logic.Relation
import Mathlib.Order.Interval.Finset.Basic

/-!
# Schedules and their first fire times

A schedule is known by the next fire time after an instant. The instants it fires at
after a given one are those that this function leads to, and the first of them, up to a
count, form one list only.
-/

namespace Timetable

/-- A partial function to the next fire time strictly after an instant. Once there is none,
there is none later on. -/
structure Schedule (α : Type*) [Preorder α] where
  next : α → Option α
  lt_next {t u : α} : next t = some u → t < u
  ended {t u : α} : next t = none → t ≤ u → next u = none

namespace Schedule

variable {α : Type*} [Preorder α] (s : Schedule α)

/-- The schedule fires at `u`, at some time after `t`. -/
def FiresAfter : α → α → Prop := Relation.TransGen fun t u => s.next t = some u

/-- The number of fire times after `t`. -/
noncomputable def remaining (t : α) : ℕ∞ := {u | s.FiresAfter t u}.encard

/-- At most `count` next fire times after an instant. -/
def upcoming : ℕ → α → List α
  | 0, _ => []
  | count + 1, t =>
    match s.next t with
    | none => []
    | some u => u :: upcoming count u

/-- Exactly the first fire times after `start`: `count` of them, or all if there are fewer. -/
structure AreFirst (start : α) (count : ℕ) (times : List α) : Prop where
  increasing : times.Pairwise (· < ·)
  fires : ∀ u ∈ times, s.FiresAfter start u
  earliest : ∀ u ∈ times, ∀ v, s.FiresAfter start v → v ∉ times → u < v
  length_eq : (times.length : ℕ∞) = min (count : ℕ∞) (s.remaining start)

variable {s} {t u v : α} {count : ℕ} {times : List α}

/-- A fire time after an instant is later. -/
theorem FiresAfter.lt (h : s.FiresAfter t u) : t < u := by
  induction h with
  | single h => exact s.lt_next h
  | tail _ h ih => exact ih.trans (s.lt_next h)

/-- Without a next fire time there is none at all. -/
theorem firesAfter_of_next_none (h : s.next t = none) : ¬ s.FiresAfter t u := by
  intro hfires
  obtain ⟨v, hv, _⟩ := Relation.TransGen.head'_iff.mp hfires
  rw [h] at hv
  cases hv

/-- The fire times after an instant are the next one and those after it. -/
theorem firesAfter_iff_of_next (h : s.next t = some u) :
    s.FiresAfter t v ↔ v = u ∨ s.FiresAfter u v := by
  rw [FiresAfter, Relation.TransGen.head'_iff]
  simp only [h, Option.some.injEq, exists_eq_left']
  rw [Relation.reflTransGen_iff_eq_or_transGen]

@[simp] theorem remaining_of_next_none (h : s.next t = none) : s.remaining t = 0 := by
  rw [remaining, Set.encard_eq_zero]
  ext u
  simp [firesAfter_of_next_none h]

/-- The next fire time is one of those that remain. -/
theorem remaining_of_next (h : s.next t = some u) : s.remaining t = s.remaining u + 1 := by
  have hinsert : {v | s.FiresAfter t v} = insert u {v | s.FiresAfter u v} := by
    ext v
    exact firesAfter_iff_of_next h
  have hnot : u ∉ {v | s.FiresAfter u v} := fun hu => (FiresAfter.lt hu).false
  rw [remaining, hinsert, Set.encard_insert_of_notMem hnot, remaining]

/-- One more remains here than after the next fire time. -/
theorem succ_le_remaining_iff (h : s.next t = some u) :
    ((count + 1 : ℕ) : ℕ∞) ≤ s.remaining t ↔ (count : ℕ∞) ≤ s.remaining u := by
  rw [remaining_of_next h, Nat.cast_succ, ENat.add_le_add_iff_right ENat.one_ne_top]

/-- Without a next fire time none remains. -/
theorem not_succ_le_remaining (h : s.next t = none) :
    ¬ ((count + 1 : ℕ) : ℕ∞) ≤ s.remaining t := by
  simp [remaining_of_next_none h]

/-- Upcoming times are fire times. -/
theorem firesAfter_of_mem_upcoming (hu : u ∈ s.upcoming count t) : s.FiresAfter t u := by
  induction count generalizing t with
  | zero => cases hu
  | succ count ih =>
    cases hnext : s.next t with
    | none => simp [upcoming, hnext] at hu
    | some w =>
      rw [upcoming, hnext] at hu
      exact (firesAfter_iff_of_next hnext).mpr ((List.mem_cons.mp hu).imp_right ih)

/-- The instant itself is not upcoming. -/
theorem notMem_upcoming : t ∉ s.upcoming count t := fun ht =>
  (firesAfter_of_mem_upcoming ht).lt.false

/-- Upcoming times increase. -/
theorem pairwise_upcoming (count : ℕ) (t : α) : (s.upcoming count t).Pairwise (· < ·) := by
  induction count generalizing t with
  | zero => exact List.Pairwise.nil
  | succ count ih =>
    cases hnext : s.next t with
    | none => simp [upcoming, hnext]
    | some w =>
      rw [upcoming, hnext]
      exact (ih w).cons fun u hu => (firesAfter_of_mem_upcoming hu).lt

/-- A fire time that is not among the next ones comes after all of them. -/
theorem lt_of_notMem_upcoming (hu : u ∈ s.upcoming count t) (hv : s.FiresAfter t v)
    (hnot : v ∉ s.upcoming count t) : u < v := by
  induction count generalizing t with
  | zero => cases hu
  | succ count ih =>
    cases hnext : s.next t with
    | none => exact absurd hv (firesAfter_of_next_none hnext)
    | some w =>
      rw [upcoming, hnext] at hu hnot
      simp only [List.mem_cons, not_or] at hu hnot
      have hafter : s.FiresAfter w v := ((firesAfter_iff_of_next hnext).mp hv).resolve_left hnot.1
      rcases hu with rfl | hu
      · exact hafter.lt
      · exact ih hu hafter hnot.2

/-- There are as many upcoming times as asked for, or as remain. -/
theorem length_upcoming (count : ℕ) (t : α) :
    ((s.upcoming count t).length : ℕ∞) = min (count : ℕ∞) (s.remaining t) := by
  induction count generalizing t with
  | zero => simp [upcoming]
  | succ count ih =>
    cases hnext : s.next t with
    | none => simp [upcoming, hnext]
    | some w =>
      rw [upcoming, hnext, remaining_of_next hnext, List.length_cons, Nat.cast_succ, ih,
        Nat.cast_succ, min_add_add_right]

/-- The upcoming times are the first ones. -/
theorem areFirst_upcoming (count : ℕ) (t : α) : s.AreFirst t count (s.upcoming count t) where
  increasing := pairwise_upcoming count t
  fires _ hu := firesAfter_of_mem_upcoming hu
  earliest _ hu _ hv hnot := lt_of_notMem_upcoming hu hv hnot
  length_eq := length_upcoming count t

/-- Of two lists of first fire times neither misses one of the other. -/
theorem AreFirst.subset {times' : List α} (h : s.AreFirst t count times)
    (h' : s.AreFirst t count times') : times ⊆ times' := by
  intro u hu
  by_contra hnot
  have hlength : times.length = times'.length := by
    exact_mod_cast h.length_eq.trans h'.length_eq.symm
  have hmissed : ∃ v ∈ times', v ∉ times := by
    by_contra hall
    simp only [not_exists, not_and, not_not] at hall
    have hperm := (List.subperm_of_subset h'.increasing.nodup hall).perm_of_length_le hlength.le
    exact hnot (hperm.mem_iff.mpr hu)
  obtain ⟨v, hv, hv_not⟩ := hmissed
  exact lt_asymm (h.earliest u hu v (h'.fires v hv) hv_not)
    (h'.earliest v hv u (h.fires u hu) hnot)

/-- No other list is exactly the first fire times. -/
theorem areFirst_iff : s.AreFirst t count times ↔ times = s.upcoming count t := by
  constructor
  · intro h
    have hfirst := s.areFirst_upcoming count t
    have hperm := (List.perm_ext_iff_of_nodup h.increasing.nodup hfirst.increasing.nodup).mpr
      fun u => ⟨fun hu => h.subset hfirst hu, fun hu => hfirst.subset h hu⟩
    exact hperm.eq_of_pairwise (fun _ _ _ _ huv hvu => absurd hvu (lt_asymm huv))
      h.increasing hfirst.increasing
  · rintro rfl
    exact areFirst_upcoming count t

/-- Where there are no more fire times than asked for, all come up. -/
theorem mem_upcoming_iff (h : s.remaining t ≤ count) :
    u ∈ s.upcoming count t ↔ s.FiresAfter t u := by
  refine ⟨firesAfter_of_mem_upcoming, fun hu => ?_⟩
  induction count generalizing t with
  | zero =>
    have hnone := Set.encard_eq_zero.mp (nonpos_iff_eq_zero.mp h)
    exact absurd hu (Set.eq_empty_iff_forall_notMem.mp hnone u)
  | succ count ih =>
    cases hnext : s.next t with
    | none => exact absurd hu (firesAfter_of_next_none hnext)
    | some w =>
      rw [remaining_of_next hnext, Nat.cast_succ, ENat.add_le_add_iff_right ENat.one_ne_top] at h
      rw [upcoming, hnext]
      exact List.mem_cons.mpr (((firesAfter_iff_of_next hnext).mp hu).imp_right (ih h))

/-- No more are upcoming than asked for. -/
theorem length_upcoming_le : (s.upcoming count t).length ≤ count := by
  have h := length_upcoming (s := s) count t
  exact_mod_cast h.trans_le (min_le_left _ _)

/-- There are `count` fire times after `t` exactly when that many come next. -/
theorem length_upcoming_eq_iff :
    (s.upcoming count t).length = count ↔ (count : ℕ∞) ≤ s.remaining t := by
  rw [← Nat.cast_inj (R := ℕ∞), length_upcoming, min_eq_left_iff]

end Schedule

section Times

variable {α : Type*} [LinearOrder α]

/-- The schedule of a set of fire times: the next one is the least that is later. -/
structure Schedule.IsOf (s : Schedule α) (times : Set α) : Prop where
  isLeast {t u : α} : s.next t = some u → IsLeast {v | v ∈ times ∧ t < v} u
  not_lt {t v : α} : s.next t = none → v ∈ times → ¬ t < v

/-- Where only finitely many instants lie between two, it fires at all times of its set. -/
theorem Schedule.IsOf.firesAfter_iff [LocallyFiniteOrder α] {s : Schedule α} {times : Set α}
    (h : s.IsOf times) {t u : α} : s.FiresAfter t u ↔ u ∈ times ∧ t < u := by
  constructor
  · intro hfires
    refine ⟨?_, hfires.lt⟩
    cases hfires with
    | single hnext => exact (h.isLeast hnext).1.1
    | tail _ hnext => exact (h.isLeast hnext).1.1
  · rintro ⟨hu, hlt⟩
    induction hcard : (Finset.Ioc t u).card using Nat.strong_induction_on generalizing t with
    | _ card ih =>
      cases hnext : s.next t with
      | none => exact absurd hlt (h.not_lt hnext hu)
      | some w =>
        rw [firesAfter_iff_of_next hnext]
        rcases ((h.isLeast hnext).2 ⟨hu, hlt⟩).eq_or_lt with rfl | hwu
        · exact Or.inl rfl
        · have htw : t < w := s.lt_next hnext
          have hsmaller : (Finset.Ioc w u).card < (Finset.Ioc t u).card := by
            apply Finset.card_lt_card
            rw [Finset.ssubset_iff_of_subset (Finset.Ioc_subset_Ioc_left htw.le)]
            exact ⟨w, Finset.mem_Ioc.mpr ⟨htw, hwu.le⟩, by simp⟩
          exact Or.inr (ih _ (hcard ▸ hsmaller) hwu rfl)

end Times

end Timetable
