import MySchedule.Interaction.Contract

/-!
# Programs side by side on one store

A pool runs any number of programs on a shared store. A schedule names, call by
call, the node that moves next, so a statement about every schedule is one about
every interleaving of the individual calls. Nodes whose guarantees imply each
other's relies keep their contracts in every schedule, and a node with a bounded
number of calls ends once it has been given that many turns.
-/

namespace Interaction

variable {F : Effects} {ι α σ τ : Type}

/-- Programs, one for each node, and the store they share. -/
structure Pool (F : Effects) (ι α σ : Type) where
  node : ι → Program F α
  store : σ

namespace Pool

variable [DecidableEq ι] (h : Handler F τ)

/-- Node `i` makes its next call; a node that has ended does nothing. -/
def step (P : Pool F ι α τ) (i : ι) : Pool F ι α τ :=
  match P.node i with
  | .ret _ => P
  | .call c next => ⟨Function.update P.node i (next (h c P.store).1), (h c P.store).2⟩

/-- All the turns of a schedule. -/
def run (P : Pool F ι α τ) (schedule : List ι) : Pool F ι α τ := schedule.foldl (step h) P

@[simp] theorem run_nil (P : Pool F ι α τ) : P.run h [] = P := rfl

@[simp] theorem run_cons (P : Pool F ι α τ) (i : ι) (schedule : List ι) :
    P.run h (i :: schedule) = (P.step h i).run h schedule := rfl

/-- A node that has ended takes no step. -/
theorem step_of_ret {P : Pool F ι α τ} {i : ι} {a : α} (hi : P.node i = .ret a) :
    P.step h i = P := by
  simp only [step, hi]

/-- A step answers the call that the node waits for. -/
theorem step_of_call {P : Pool F ι α τ} {i : ι} {c : F.Call}
    {next : Except F.Failure (F.Answer c) → Program F α} (hi : P.node i = .call c next) :
    P.step h i = ⟨Function.update P.node i (next (h c P.store).1), (h c P.store).2⟩ := by
  simp only [step, hi]

/-- The node goes on with the answer. -/
theorem step_node_self {P : Pool F ι α τ} {i : ι} {c : F.Call}
    {next : Except F.Failure (F.Answer c) → Program F α} (hi : P.node i = .call c next) :
    (P.step h i).node i = next (h c P.store).1 := by
  rw [step_of_call h hi]
  exact Function.update_self ..

/-- A turn of another node leaves this node where it is. -/
theorem step_node_of_ne {P : Pool F ι α τ} {i j : ι} (hij : j ≠ i) :
    (P.step h j).node i = P.node i := by
  cases hj : P.node j with
  | ret a => rw [step_of_ret h hj]
  | call c next =>
    rw [step_of_call h hj]
    exact Function.update_of_ne hij.symm ..

/-- A node that has ended stays ended. -/
theorem run_node_of_ret {P : Pool F ι α τ} {i : ι} {a : α} (hi : P.node i = .ret a)
    (schedule : List ι) : (P.run h schedule).node i = .ret a := by
  induction schedule generalizing P with
  | nil => exact hi
  | cons j schedule ih =>
    refine ih ?_
    by_cases hij : j = i
    · subst hij
      rwa [step_of_ret h hi]
    · rwa [step_node_of_ne h hij]

/-- A node that makes at most `n` calls has ended after `n` turns of its own, however the
turns of the others fall between. -/
theorem run_node_ended {P : Pool F ι α τ} {i : ι} {n : ℕ} (hn : (P.node i).CallsAtMost n)
    {schedule : List ι} (hs : n ≤ schedule.count i) :
    ∃ a, (P.run h schedule).node i = .ret a := by
  induction schedule generalizing P n with
  | nil =>
    rw [List.count_nil, Nat.le_zero] at hs
    subst hs
    cases hi : P.node i with
    | ret a => exact ⟨a, hi⟩
    | call c next =>
      rw [hi] at hn
      exact hn.elim
  | cons j schedule ih =>
    by_cases hij : j = i
    · subst hij
      cases hj : P.node j with
      | ret a => exact ⟨a, run_node_of_ret h hj _⟩
      | call c next =>
        rw [hj] at hn
        cases n with
        | zero => exact hn.elim
        | succ n =>
          rw [List.count_cons_self] at hs
          refine ih (n := n) ?_ (by omega)
          rw [step_node_self h hj]
          exact hn _
    · rw [List.count_cons_of_ne hij] at hs
      refine ih (n := n) ?_ hs
      rwa [step_node_of_ne h hij]

variable {h} {Γ : ι → Contract F σ} {R : τ → σ → Prop} {Q : ι → α → σ → Prop}

/-- Every node still meets its contract, from the present store on. -/
def Sound (Γ : ι → Contract F σ) (R : τ → σ → Prop) (Q : ι → α → σ → Prop)
    (P : Pool F ι α τ) : Prop :=
  ∃ s, R P.store s ∧ ∀ i, (Γ i).Meets (P.node i) (Q i) s

/-- A step of any node keeps the pool sound. -/
theorem Sound.step (hcov : ∀ i, (Γ i).Covers h R)
    (hside : ∀ i j, i ≠ j → ∀ s t, (Γ i).guarantee s t → (Γ j).rely s t)
    {P : Pool F ι α τ} (hP : P.Sound Γ R Q) (i : ι) : (P.step h i).Sound Γ R Q := by
  obtain ⟨s, hs, hm⟩ := hP
  cases hi : P.node i with
  | ret a =>
    rw [step_of_ret h hi]
    exact ⟨s, hs, hm⟩
  | call c next =>
    rw [step_of_call h hi]
    obtain ⟨t, ht, hR⟩ := hcov i c P.store s hs
    have hmi := hm i
    rw [hi] at hmi
    obtain ⟨hg, hnext⟩ := hmi s ((Γ i).rely_refl s) _ t ht
    refine ⟨t, hR, fun j => ?_⟩
    by_cases hij : j = i
    · subst hij
      simpa only [Function.update_self] using hnext
    · simpa only [Function.update_of_ne hij] using
        (hm j).rely (hside i j (Ne.symm hij) s t hg)

/-- Every schedule keeps every contract. -/
theorem Sound.run (hcov : ∀ i, (Γ i).Covers h R)
    (hside : ∀ i j, i ≠ j → ∀ s t, (Γ i).guarantee s t → (Γ j).rely s t)
    {P : Pool F ι α τ} (hP : P.Sound Γ R Q) (schedule : List ι) :
    (P.run h schedule).Sound Γ R Q := by
  induction schedule generalizing P with
  | nil => exact hP
  | cons i schedule ih => exact ih (hP.step hcov hside i)

omit [DecidableEq ι] in
/-- A node that has ended satisfies its postcondition at the present store. -/
theorem Sound.post {P : Pool F ι α τ} {s : σ} (hm : ∀ i, (Γ i).Meets (P.node i) (Q i) s) {i : ι}
    {a : α} (hi : P.node i = .ret a) : Q i a s := by
  have h := hm i
  rw [hi] at h
  exact h s ((Γ i).rely_refl s)

end Pool

end Interaction
