import MySchedule.Machines.Runs

/-!
# Runs up to the first failure

A machine whose steps may fail takes one action after the other until one of them does. Then
it has taken a prefix of the actions, and the rest are left.
-/

namespace Machines

variable {S A ε : Type}

/-- What follows only a success. -/
def andThen (first : Except ε Unit × S) (next : S → Except ε Unit × S) : Except ε Unit × S :=
  match first with
  | (.error ex, s) => (.error ex, s)
  | (.ok (), s) => next s

@[simp] theorem andThen_ok (u : Unit) (s : S) (next : S → Except ε Unit × S) :
    andThen (.ok u, s) next = next s := rfl

@[simp] theorem andThen_error (ex : ε) (s : S) (next : S → Except ε Unit × S) :
    andThen (.error ex, s) next = (.error ex, s) := rfl

namespace Machine

variable (M : Machine S A (Except ε Unit))

/-- The actions, up to the first that fails. -/
def untilError : S → List A → Except ε Unit × S
  | s, [] => (.ok (), s)
  | s, a :: actions => andThen (M.step s a) fun s => untilError s actions

/-- The step does not fail. -/
def Succeeds (s : S) (a : A) : Prop := (M.step s a).1 = .ok ()

/-- The run of a list of actions fails at one of them. -/
structure FailsAt (s : S) (actions before : List A) (a : A) (ex : ε) : Prop where
  taken : ∃ rest, actions = before ++ a :: rest
  sound : M.Throughout s before M.Succeeds
  failure : (M.step (M.after s before) a).1 = .error ex

variable {M} {s t : S} {actions : List A}

/-- A run goes on after its first part if nothing has failed there. -/
theorem untilError_append (before rest : List A) : M.untilError s (before ++ rest) =
    andThen (M.untilError s before) fun s => M.untilError s rest := by
  induction before generalizing s with
  | nil => rfl
  | cons a before ih =>
    rw [List.cons_append, untilError, untilError]
    rcases M.step s a with ⟨_ | _, t⟩
    · rfl
    · exact ih

/-- A run of one action is its step. -/
theorem untilError_singleton (s : S) (a : A) : M.untilError s [a] = M.step s a := by
  rw [untilError]
  rcases M.step s a with ⟨_ | _, t⟩ <;> rfl

/-- Without a failure the run is that of all the actions. -/
theorem untilError_of_succeeds (h : M.Throughout s actions M.Succeeds) :
    M.untilError s actions = (.ok (), M.after s actions) := by
  induction actions generalizing s with
  | nil => rfl
  | cons a actions ih =>
    obtain ⟨ha, h⟩ := throughout_cons.mp h
    have hstep : M.step s a = (.ok (), (M.step s a).2) := Prod.ext ha rfl
    rw [untilError, hstep, andThen_ok, ih h, after_cons]

/-- At a failure the run ends, and the step that failed is the last one taken. -/
theorem FailsAt.untilError_eq {before : List A} {a : A} {ex : ε}
    (h : M.FailsAt s actions before a ex) :
    M.untilError s actions = (.error ex, M.after s (before ++ [a])) := by
  obtain ⟨⟨rest, rfl⟩, hbefore, hfailure⟩ := h
  have hstep : M.step (M.after s before) a =
      (.error ex, (M.step (M.after s before) a).2) := Prod.ext hfailure rfl
  rw [untilError_append, untilError_of_succeeds hbefore, andThen_ok, untilError, hstep,
    andThen_error, after_append, after_cons, after_nil]

/-- Each run succeeds throughout, or fails at one of its actions. -/
theorem succeeds_or_failsAt (M : Machine S A (Except ε Unit)) (s : S) (actions : List A) :
    M.Throughout s actions M.Succeeds ∨ ∃ before a ex, M.FailsAt s actions before a ex := by
  induction actions generalizing s with
  | nil => exact Or.inl throughout_nil
  | cons a actions ih =>
    cases ha : (M.step s a).1 with
    | error ex => exact Or.inr ⟨[], a, ex, ⟨actions, rfl⟩, throughout_nil, ha⟩
    | ok =>
      rcases ih (M.step s a).2 with h | ⟨before, b, ex, ⟨rest, hrest⟩, hbefore, hfailure⟩
      · exact Or.inl (throughout_cons.mpr ⟨ha, h⟩)
      · exact Or.inr ⟨a :: before, b, ex, ⟨rest, by rw [hrest, List.cons_append]⟩,
          throughout_cons.mpr ⟨ha, hbefore⟩, hfailure⟩

/-- A run gets through if every step of it does. -/
theorem untilError_ok_iff : M.untilError s actions = (.ok (), t) ↔
    t = M.after s actions ∧ M.Throughout s actions M.Succeeds := by
  constructor
  · intro h
    rcases succeeds_or_failsAt M s actions with hall | ⟨before, a, ex, hfails⟩
    · rw [untilError_of_succeeds hall, Prod.mk.injEq] at h
      exact ⟨h.2.symm, hall⟩
    · rw [hfails.untilError_eq] at h
      cases h
  · rintro ⟨rfl, hall⟩
    exact untilError_of_succeeds hall

end Machine

/-! ## What could be done -/

/-- The actions that could be done are collected. -/
def collecting (act : A → Except ε Unit) : Machine (List A) A (Except ε Unit) where
  step done a := andThen (act a, done) fun done => (.ok (), done ++ [a])

variable {act : A → Except ε Unit} {actions : List A}

/-- A step gets through if its action does. -/
theorem collecting_succeeds_iff {done : List A} {a : A} :
    (collecting act).Succeeds done a ↔ act a = .ok () := by
  cases hact : act a with
  | error ex => simp [Machine.Succeeds, collecting, hact]
  | ok => simp [Machine.Succeeds, collecting, hact]

/-- All steps get through if all actions do. -/
theorem collecting_throughout_iff {done : List A} :
    (collecting act).Throughout done actions (collecting act).Succeeds ↔
      ∀ a ∈ actions, act a = .ok () := by
  rw [← Machine.throughout_actions (M := collecting act) (s := done)]
  simp only [Machine.Throughout, collecting_succeeds_iff]

/-- Actions that get through are collected in order. -/
theorem collecting_after (done : List A) (h : ∀ a ∈ actions, act a = .ok ()) :
    (collecting act).after done actions = done ++ actions := by
  induction actions generalizing done with
  | nil => simp
  | cons a actions ih =>
    obtain ⟨ha, h⟩ := List.forall_mem_cons.mp h
    have hstep : ((collecting act).step done a).2 = done ++ [a] := by
      simp only [collecting, ha, andThen_ok]
    rw [Machine.after_cons, hstep, ih (done ++ [a]) h, List.append_assoc, List.singleton_append]

variable (act) in
/-- All of a list is collected exactly if all of it can be done. -/
theorem collecting_ok_iff {done : List A} :
    (collecting act).untilError [] actions = (.ok (), done) ↔
      done = actions ∧ ∀ a ∈ actions, act a = .ok () := by
  rw [Machine.untilError_ok_iff, collecting_throughout_iff]
  refine and_congr_left fun h => ?_
  rw [collecting_after [] h, List.nil_append]

/-- All of a list can be done, or there is a first that cannot. -/
theorem done_or_error (act : A → Except ε Unit) (actions : List A) :
    (∀ a ∈ actions, act a = .ok ()) ∨ ∃ before a rest ex, actions = before ++ a :: rest ∧
      (∀ b ∈ before, act b = .ok ()) ∧ act a = .error ex := by
  rcases Machine.succeeds_or_failsAt (collecting act) [] actions with
    hall | ⟨before, a, ex, ⟨rest, hrest⟩, hsound, hfailure⟩
  · exact Or.inl (collecting_throughout_iff.mp hall)
  · refine Or.inr ⟨before, a, rest, ex, hrest, collecting_throughout_iff.mp hsound, ?_⟩
    cases hact : act a with
    | error ex' => simpa [collecting, hact] using hfailure
    | ok => simp [collecting, hact] at hfailure

/-- The first of a list that cannot be done is where the collecting ends. -/
theorem collecting_error {before rest : List A} {a : A} {ex : ε}
    (h : ∀ b ∈ before, act b = .ok ()) (ha : act a = .error ex) :
    (collecting act).untilError [] (before ++ a :: rest) = (.error ex, before) := by
  have hstep : ∀ done, (collecting act).step done a = (.error ex, done) := by
    intro done
    simp only [collecting, ha, andThen_error]
  have hfails : (collecting act).FailsAt [] (before ++ a :: rest) before a ex :=
    ⟨⟨rest, rfl⟩, collecting_throughout_iff.mpr h, by rw [hstep]⟩
  rw [hfails.untilError_eq, Machine.after_append, Machine.after_cons, Machine.after_nil, hstep,
    collecting_after [] h, List.nil_append]

end Machines
