import MySchedule.Interaction.Program

/-!
# A program amid changes of others

One program runs while others change the state between its calls. What they do
before each call is arbitrary but given, so a statement about every such sequence
is one about every interleaving. The run keeps every call with the states around it.
-/

namespace Interaction

variable {F : Effects} {α β γ σ : Type}

/-- A call as it was executed: the state it found, its answer and the state it left. -/
structure Execution (F : Effects) (σ : Type) where
  call : F.Call
  before : σ
  answer : Except F.Failure (F.Answer call)
  after : σ

/-- How a run ended: its result, its calls in order, and the state after the last call. -/
structure Ending (F : Effects) (σ α : Type) where
  result : α
  calls : List (Execution F σ)
  final : σ

/-- Run a program from its call number `n` on; `others` acts before each call. -/
def Program.runAmid (h : Handler F σ) (others : ℕ → σ → σ) :
    Program F α → ℕ → σ → Ending F σ α
  | .ret a, _, s => ⟨a, [], s⟩
  | .call c next, n, s =>
    let answered := h c (others n s)
    let rest := (next answered.1).runAmid h others (n + 1) answered.2
    ⟨rest.result, ⟨c, others n s, answered.1, answered.2⟩ :: rest.calls, rest.final⟩

/-- A sequence runs its second part from where the first one ended. -/
theorem Program.runAmid_bind (h : Handler F σ) (others : ℕ → σ → σ) (p : Program F α)
    (f : α → Program F γ) (n : ℕ) (s : σ) :
    (p >>= f).runAmid h others n s =
      let first := p.runAmid h others n s
      let rest := (f first.result).runAmid h others (n + first.calls.length) first.final
      ⟨rest.result, first.calls ++ rest.calls, rest.final⟩ := by
  induction p generalizing n s with
  | ret a => rfl
  | call c next ih =>
    have hrest := ih (h c (others n s)).1 (n + 1) (h c (others n s)).2
    simp only [Program.call_bind, Program.runAmid, List.length_cons, List.cons_append] at hrest ⊢
    rw [hrest, Nat.add_right_comm, Nat.add_assoc]

/-- Every call of a run was answered by the handler, in the state it found. -/
theorem Program.runAmid_executed (h : Handler F σ) (others : ℕ → σ → σ) (p : Program F α) (n : ℕ)
    (s : σ) : ∀ e ∈ (p.runAmid h others n s).calls, h e.call e.before = (e.answer, e.after) := by
  induction p generalizing n s with
  | ret a => simp [Program.runAmid]
  | call c next ih =>
    intro e he
    rcases List.mem_cons.mp he with rfl | he
    · rfl
    · exact ih _ _ _ e he

namespace Body

/-- Run a body from a private state amid changes of others. -/
def runAmid (h : Handler F σ) (others : ℕ → σ → σ) (m : Body F β α) (b : β) (n : ℕ) (s : σ) :
    Ending F σ (Except F.Failure α × β) := (m.start b).runAmid h others n s

variable {h : Handler F σ} {others : ℕ → σ → σ} {b b' : β} {n : ℕ} {s s' : σ}
  {m : Body F β α} {calls : List (Execution F σ)}

@[simp] theorem runAmid_pure (a : α) :
    runAmid h others (pure a : Body F β α) b n s = ⟨(.ok a, b), [], s⟩ := rfl

@[simp] theorem runAmid_throw (e : F.Failure) :
    runAmid h others (throw e : Body F β α) b n s = ⟨(.error e, b), [], s⟩ := rfl

@[simp] theorem runAmid_perform (c : F.Call) :
    runAmid h others (perform c : Body F β _) b n s = ⟨((h c (others n s)).1, b),
      [⟨c, others n s, (h c (others n s)).1, (h c (others n s)).2⟩], (h c (others n s)).2⟩ := rfl

/-- Reading the private state is no call. -/
theorem runAmid_get_bind (f : β → Body F β γ) :
    runAmid h others (get >>= f) b n s = runAmid h others (f b) b n s := rfl

/-- After a normal return the second part runs from where the first has ended. -/
theorem runAmid_bind_of_ok {a : α} {f : α → Body F β γ}
    (hm : runAmid h others m b n s = ⟨(.ok a, b'), calls, s'⟩) :
    runAmid h others (m >>= f) b n s =
      let rest := runAmid h others (f a) b' (n + calls.length) s'
      ⟨rest.result, calls ++ rest.calls, rest.final⟩ := by
  unfold runAmid at hm ⊢
  rw [start_bind, Program.runAmid_bind, hm]

/-- An exception skips the second part. -/
theorem runAmid_bind_of_error {e : F.Failure} {f : α → Body F β γ}
    (hm : runAmid h others m b n s = ⟨(.error e, b'), calls, s'⟩) :
    runAmid h others (m >>= f) b n s = ⟨(.error e, b'), calls, s'⟩ := by
  unfold runAmid at hm ⊢
  rw [start_bind, Program.runAmid_bind, hm]
  simp [Program.runAmid]

/-- One call whose answer is not used. -/
theorem runAmid_discard_perform {c : F.Call} {a : F.Answer c}
    (hc : h c (others n s) = (.ok a, s')) :
    runAmid h others (discard (perform c) : Body F β Unit) b n s =
      ⟨(.ok (), b), [⟨c, others n s, .ok a, s'⟩], s'⟩ := by
  have hcall : runAmid h others (perform c : Body F β _) b n s =
      ⟨(.ok a, b), [⟨c, others n s, .ok a, s'⟩], s'⟩ := by
    rw [runAmid_perform, hc]
  exact runAmid_bind_of_ok hcall

/-- A call whose answer is dropped still throws. -/
theorem runAmid_discard_perform_error {c : F.Call} {e : F.Failure}
    (hc : h c (others n s) = (.error e, s')) :
    runAmid h others (discard (perform c) : Body F β Unit) b n s =
      ⟨(.error e, b), [⟨c, others n s, .error e, s'⟩], s'⟩ := by
  have hcall : runAmid h others (perform c : Body F β _) b n s =
      ⟨(.error e, b), [⟨c, others n s, .error e, s'⟩], s'⟩ := by
    rw [runAmid_perform, hc]
  exact runAmid_bind_of_error hcall

/-- A handler that is not needed is not run. -/
theorem runAmid_tryCatch_of_ok {a : α} {handle : F.Failure → Body F β α}
    (hm : runAmid h others m b n s = ⟨(.ok a, b'), calls, s'⟩) :
    runAmid h others (tryCatch m handle) b n s = ⟨(.ok a, b'), calls, s'⟩ := by
  unfold runAmid at hm ⊢
  rw [start_tryCatch, Program.runAmid_bind, hm]
  simp [Program.runAmid]

/-- A handler runs from where the exception was thrown, amid the changes that follow. -/
theorem runAmid_tryCatch_of_error {e : F.Failure} {handle : F.Failure → Body F β α}
    (hm : runAmid h others m b n s = ⟨(.error e, b'), calls, s'⟩) :
    runAmid h others (tryCatch m handle) b n s =
      let rest := runAmid h others (handle e) b' (n + calls.length) s'
      ⟨rest.result, calls ++ rest.calls, rest.final⟩ := by
  unfold runAmid at hm ⊢
  rw [start_tryCatch, Program.runAmid_bind, hm]

end Body

end Interaction
