import Mathlib.Data.List.Basic

/-!
# Runs of a deterministic machine

A machine answers each action and moves on. What one step preserves, every run
preserves; a property of every step of a run is followed action by action; and
two machines run on the same actions stay related as long as one step, or one
step that nothing has stopped yet, relates them.
-/

namespace Machines

/-- A machine: the output and the next state for every state and action. -/
structure Machine (S A O : Type) where
  step : S → A → O × S

namespace Machine

variable {S T A O O' : Type} (M : Machine S A O) (N : Machine T A O')

/-- The state after a run. -/
def after (s : S) (actions : List A) : S := actions.foldl (fun s a => (M.step s a).2) s

/-- Every step of the run, taken from the state it is taken in, satisfies `Q`. -/
def Throughout (s : S) (actions : List A) (Q : S → A → Prop) : Prop :=
  ∀ before a rest, actions = before ++ a :: rest → Q (M.after s before) a

@[simp] theorem after_nil (s : S) : M.after s [] = s := rfl

@[simp] theorem after_cons (s : S) (a : A) (actions : List A) :
    M.after s (a :: actions) = M.after (M.step s a).2 actions := rfl

/-- A run goes on from where its first part has led. -/
theorem after_append (s : S) (before rest : List A) :
    M.after s (before ++ rest) = M.after (M.after s before) rest := List.foldl_append

variable {M N} {s : S} {t : T} {actions : List A} {I : S → Prop} {P Q : S → A → Prop}
  {R : S → T → Prop}

/-- Nothing is asked of an empty run. -/
theorem throughout_nil : M.Throughout s [] Q := by
  intro before a rest h
  cases before <;> cases h

/-- What holds throughout a run holds at its first step and throughout the rest. -/
theorem throughout_cons {a : A} : M.Throughout s (a :: actions) Q ↔
    Q s a ∧ M.Throughout (M.step s a).2 actions Q := by
  constructor
  · intro h
    refine ⟨h [] a actions rfl, fun before b rest he => ?_⟩
    exact h (a :: before) b rest (by rw [he, List.cons_append])
  · rintro ⟨ha, h⟩ before b rest he
    cases before with
    | nil =>
      cases he
      exact ha
    | cons c before =>
      rw [List.cons_append, List.cons.injEq] at he
      obtain ⟨rfl, rfl⟩ := he
      exact h before b rest rfl

/-- What holds throughout a run holds throughout its last part. -/
theorem Throughout.suffix {before rest : List A} (h : M.Throughout s (before ++ rest) Q) :
    M.Throughout (M.after s before) rest Q := by
  intro before' a rest' he
  rw [← M.after_append]
  exact h (before ++ before') a rest' (by rw [he, List.append_assoc])

/-- A property of the actions alone. -/
theorem throughout_actions {p : A → Prop} :
    M.Throughout s actions (fun _ a => p a) ↔ ∀ a ∈ actions, p a := by
  constructor
  · intro h a ha
    obtain ⟨before, rest, he⟩ := List.append_of_mem ha
    exact h before a rest he
  · rintro h before a rest rfl
    exact h a (by simp)

/-- What every step preserves holds after every run. -/
theorem invariant (hI : ∀ s a, I s → I (M.step s a).2) (hs : I s) (actions : List A) :
    I (M.after s actions) := by
  induction actions generalizing s with
  | nil => exact hs
  | cons a actions ih => exact ih (hI s a hs)

/-- What every step of the kind `P` preserves holds after every run of such steps. -/
theorem invariant_of (hI : ∀ s a, P s a → I s → I (M.step s a).2) (hs : I s)
    (h : M.Throughout s actions P) : I (M.after s actions) := by
  induction actions generalizing s with
  | nil => exact hs
  | cons a actions ih =>
    obtain ⟨ha, h⟩ := throughout_cons.mp h
    exact ih (hI s a ha hs) h

/-- Under an invariant, two properties of steps that agree hold throughout the same runs. -/
theorem throughout_iff (hI : ∀ s a, I s → I (M.step s a).2) (hs : I s)
    (h : ∀ s a, I s → (P s a ↔ Q s a)) :
    M.Throughout s actions P ↔ M.Throughout s actions Q := by
  constructor
  · exact fun hp before a rest he => (h _ a (invariant hI hs before)).mp (hp before a rest he)
  · exact fun hq before a rest he => (h _ a (invariant hI hs before)).mpr (hq before a rest he)

/-- Two properties of steps that agree under an invariant, which the steps of the first kind
keep, hold throughout the same runs. -/
theorem throughout_iff_of (hI : ∀ s a, I s → P s a → I (M.step s a).2) (hs : I s)
    (h : ∀ s a, I s → (P s a ↔ Q s a)) :
    M.Throughout s actions P ↔ M.Throughout s actions Q := by
  induction actions generalizing s with
  | nil => exact ⟨fun _ => throughout_nil, fun _ => throughout_nil⟩
  | cons a actions ih =>
    rw [throughout_cons, throughout_cons]
    constructor
    · rintro ⟨ha, hrest⟩
      exact ⟨(h s a hs).mp ha, (ih (hI s a hs ha)).mp hrest⟩
    · rintro ⟨ha, hrest⟩
      have hp := (h s a hs).mpr ha
      exact ⟨hp, (ih (hI s a hs hp)).mpr hrest⟩

/-- Machines that step together run together. -/
theorem lockstep (hR : ∀ s t a, R s t → R (M.step s a).2 (N.step t a).2) (h : R s t)
    (actions : List A) : R (M.after s actions) (N.after t actions) := by
  induction actions generalizing s t with
  | nil => exact h
  | cons a actions ih => exact ih (hR s t a h)

/-- Machines that step together until something stops them run together until then. -/
theorem lockstep_until (hR : ∀ s t a, P s a → R s t → R (M.step s a).2 (N.step t a).2)
    (h : R s t) (hP : M.Throughout s actions P) : R (M.after s actions) (N.after t actions) := by
  induction actions generalizing s t with
  | nil => exact h
  | cons a actions ih =>
    obtain ⟨ha, hP⟩ := throughout_cons.mp hP
    exact ih (hR s t a ha h) hP

end Machine

end Machines
