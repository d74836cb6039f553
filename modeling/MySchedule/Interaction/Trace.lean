import MySchedule.Interaction.Contract

/-!
# What a program was answered, call by call

A handler that also keeps the trace of its calls, and the bodies that propagate
failures: such a body stops at the first call that fails in a way the body does
not handle itself, and then throws exactly what that call failed with. The
answers are arbitrary, so a body that propagates does so in every run.
-/

namespace Interaction

/-- A call together with its answer. -/
structure Event (F : Effects) where
  call : F.Call
  answer : Except F.Failure (F.Answer call)

variable {F : Effects} {α β γ σ τ : Type}

/-- The contract of a body that is watched alone: any answer, appended to the trace. -/
def observed : Contract F (List (Event F)) := .alone fun c s r t => t = s ++ [⟨c, r⟩]

/-- A handler, with the trace of its calls. -/
def recorded (h : Handler F σ) : Handler F (σ × List (Event F)) := fun c x =>
  ((h c x.1).1, ((h c x.1).2, x.2 ++ [⟨c, (h c x.1).1⟩]))

/-- A recorded call is answered as before, and is one more event. -/
theorem recorded_eq_iff {h : Handler F σ} {c : F.Call} {x y : σ × List (Event F)}
    {r : Except F.Failure (F.Answer c)} :
    recorded h c x = (r, y) ↔ h c x.1 = (r, y.1) ∧ y.2 = x.2 ++ [⟨c, r⟩] := by
  constructor
  · intro hc
    obtain ⟨hr, hy⟩ := Prod.mk.inj hc
    subst hr hy
    exact ⟨rfl, rfl⟩
  · rintro ⟨hc, hy⟩
    unfold recorded
    rw [hc, ← hy]

/-- To keep the trace changes no run. -/
theorem Program.run_recorded (h : Handler F σ) (p : Program F α) (x : σ × List (Event F)) :
    (p.run (recorded h) x).1 = (p.run h x.1).1 ∧ (p.run (recorded h) x).2.1 = (p.run h x.1).2 := by
  induction p generalizing x with
  | ret a => exact ⟨rfl, rfl⟩
  | call c next ih => exact ih (h c x.1).1 _

/-- The calls of a body that is run alone, with their answers. -/
def Body.calls (h : Handler F σ) (m : Body F β α) (b : β) (s : σ) : List (Event F) :=
  (Body.runWith (recorded h) m b (s, [])).2.2

/-- Who watches alone sees what was recorded since. -/
theorem covers_recorded (h : Handler F σ) (before : List (Event F)) :
    (observed (F := F)).Covers (recorded h) fun x trace => x.2 = before ++ trace := by
  rintro c x trace htrace
  exact ⟨_, rfl, by simp only [recorded, htrace, List.append_assoc]⟩

section

variable (step : F.Call → Bool) (handled : F.Call → F.Failure → Bool)

/-- Whether the call failed in a way that its caller does not handle. -/
def Event.threw (e : Event F) : Bool :=
  match e.answer with
  | .ok _ => false
  | .error ex => !handled e.call ex

/-- Only steps were called, and none failed unhandled. -/
def Smooth (trace : List (Event F)) : Prop :=
  ∀ e ∈ trace, step e.call = true ∧ e.threw handled = false

/-- The last call is the one that failed unhandled, with `ex`. -/
def BrokenBy (ex : F.Failure) (trace : List (Event F)) : Prop :=
  ∃ before c, trace = before ++ [⟨c, .error ex⟩] ∧ Smooth step handled before ∧
    step c = true ∧ handled c ex = false

/-- From a private state in `p`, the body either goes through smoothly, to `q`, or throws
what its last call failed with. -/
def Propagates (p : β → Prop) (m : Body F β α) (q : α → β → Prop) : Prop :=
  observed.Triple (fun b s => p b ∧ Smooth step handled s) m
    (fun a b s => q a b ∧ Smooth step handled s) fun ex _ s => BrokenBy step handled ex s

end

variable {step : F.Call → Bool} {handled : F.Call → F.Failure → Bool} {p p' : β → Prop}
  {m : Body F β α} {q q' : α → β → Prop} {r : γ → β → Prop}

/-- Nothing has gone wrong in an empty trace. -/
theorem smooth_nil : Smooth step handled ([] : List (Event F)) := by simp [Smooth]

/-- A step that goes well keeps the trace smooth. -/
theorem Smooth.snoc {trace : List (Event F)} (h : Smooth step handled trace) {e : Event F}
    (hs : step e.call = true) (ht : e.threw handled = false) :
    Smooth step handled (trace ++ [e]) := by
  intro e' he'
  rcases List.mem_append.mp he' with he' | he'
  · exact h e' he'
  · rw [List.mem_singleton.mp he']
    exact ⟨hs, ht⟩

/-- Every call of a trace that was broken off is a step. -/
theorem BrokenBy.steps {trace : List (Event F)} {ex : F.Failure}
    (h : BrokenBy step handled ex trace) : ∀ e ∈ trace, step e.call = true := by
  obtain ⟨before, c, rfl, hb, hc, _⟩ := h
  intro e he
  rcases List.mem_append.mp he with he | he
  · exact (hb e he).1
  · rwa [List.mem_singleton.mp he]

/-- No call but the last one failed unhandled. -/
theorem BrokenBy.eq_of_mem {trace : List (Event F)} {ex ex' : F.Failure} {c : F.Call}
    (h : BrokenBy step handled ex trace) (hmem : ⟨c, .error ex'⟩ ∈ trace)
    (hex : handled c ex' = false) : ex' = ex := by
  obtain ⟨before, c', rfl, hbefore, _, _⟩ := h
  rcases List.mem_append.mp hmem with hmem | hmem
  · have hthrew := (hbefore _ hmem).2
    simp [Event.threw, hex] at hthrew
  · cases List.mem_singleton.mp hmem
    rfl

namespace Propagates

theorem consequence (h : Propagates step handled p m q) (hp : ∀ b, p' b → p b)
    (hq : ∀ a b, q a b → q' a b) : Propagates step handled p' m q' :=
  Contract.Triple.consequence h (fun b _ hb => ⟨hp b hb.1, hb.2⟩)
    (fun a b _ hb => ⟨hq a b hb.1, hb.2⟩) fun _ _ _ hb => hb

theorem pure {a : α} (h : ∀ b, p b → q a b) :
    Propagates step handled p (Pure.pure a : Body F β α) q :=
  Contract.Triple.pure (fun _ => Contract.stable_alone _) fun b _ hb => ⟨h b hb.1, hb.2⟩

/-- A throw of its own would not be propagation; it must be out of reach. -/
theorem throw {ex : F.Failure} (h : ∀ b, ¬p b) :
    Propagates step handled p (MonadExcept.throw ex : Body F β α) q :=
  fun b _ hb => (h b hb.1).elim

/-- Sequencing propagates what either part throws. -/
theorem bind {f : α → Body F β γ} (hm : Propagates step handled p m q)
    (hf : ∀ a, Propagates step handled (q a) (f a) r) :
    Propagates step handled p (m >>= f) r := Contract.Triple.bind hm hf

/-- Dropping the result catches nothing. -/
theorem discard {r : PUnit → β → Prop} (hm : Propagates step handled p m q)
    (h : ∀ a b, q a b → r ⟨⟩ b) : Propagates step handled p (discard m) r := by
  change Propagates step handled p (m >>= fun _ => Pure.pure PUnit.unit) r
  exact hm.bind fun a => pure (h a)

theorem get_bind {f : β → Body F β γ} (hf : ∀ b, Propagates step handled (fun b' => b' = b ∧ p b')
    (f b) r) : Propagates step handled p (get >>= f) r :=
  Contract.Triple.get_bind fun b => Contract.Triple.consequence (hf b)
    (fun _ _ h => ⟨⟨h.1, h.2.1⟩, h.2.2⟩) (fun _ _ _ h => h) fun _ _ _ h => h

theorem set {b' : β} {q : PUnit → β → Prop} (h : ∀ b, p b → q ⟨⟩ b') :
    Propagates step handled p (MonadStateOf.set b' : Body F β PUnit) q :=
  Contract.Triple.set (Contract.stable_alone _) fun b _ hb => ⟨h b hb.1, hb.2⟩

theorem ite {c : Prop} [Decidable c] {m' : Body F β α} (ht : c → Propagates step handled p m q)
    (he : ¬c → Propagates step handled p m' q) :
    Propagates step handled p (if c then m else m') q := Contract.Triple.ite ht he

/-- A call none of whose failures is handled. -/
theorem perform {c : F.Call} {q : F.Answer c → β → Prop} (hc : step c = true)
    (hh : ∀ ex, handled c ex = false) (h : ∀ a b, p b → q a b) :
    Propagates step handled p (Body.perform c : Body F β _) q := by
  refine Contract.Triple.perform (fun _ => Contract.stable_alone _)
    (fun _ _ => Contract.stable_alone _) (fun _ _ => Contract.stable_alone _) ?_
  rintro b s r t ⟨hb, hs⟩ rfl
  refine ⟨trivial, ?_⟩
  cases r with
  | ok a => exact ⟨h a b hb, hs.snoc hc rfl⟩
  | error ex => exact ⟨s, c, rfl, hs, hc, hh ex⟩

/-- A call whose handled failures are caught, and its other failures thrown again. -/
theorem perform_caught {c : F.Call} {q : PUnit → β → Prop} {handle : F.Failure → Body F β PUnit}
    (hc : step c = true) (h : ∀ b, p b → q ⟨⟩ b)
    (hcaught : ∀ ex, handled c ex = true → Propagates step handled p (handle ex) q)
    (hagain : ∀ ex, handled c ex = false → handle ex = MonadExcept.throw ex) :
    Propagates step handled p
      (tryCatch (Functor.discard (Body.perform c : Body F β _)) handle) q := by
  let E : F.Failure → β → List (Event F) → Prop := fun ex b s =>
    if handled c ex then p b ∧ Smooth step handled s else BrokenBy step handled ex s
  have hcall : observed.Triple (fun b s => p b ∧ Smooth step handled s)
      (Body.perform c : Body F β _) (fun _ b s => p b ∧ Smooth step handled s) E := by
    refine Contract.Triple.perform (fun _ => Contract.stable_alone _)
      (fun _ _ => Contract.stable_alone _) (fun _ _ => Contract.stable_alone _) ?_
    rintro b s r t ⟨hb, hs⟩ rfl
    refine ⟨trivial, ?_⟩
    cases r with
    | ok a => exact ⟨hb, hs.snoc hc rfl⟩
    | error ex =>
      by_cases hex : handled c ex = true
      · simp only [Contract.Outcome, E, hex, if_true]
        exact ⟨hb, hs.snoc hc (by simp [Event.threw, hex])⟩
      · simp only [Contract.Outcome, E, hex, if_false, Bool.false_eq_true]
        exact ⟨s, c, rfl, hs, hc, by simpa using hex⟩
  refine Contract.Triple.tryCatch (E := E) ?_ fun ex => ?_
  · change observed.Triple _ (Body.perform c >>= fun _ => Pure.pure PUnit.unit) _ _
    exact hcall.bind fun a => Contract.Triple.pure (fun _ => Contract.stable_alone _)
      fun b _ hb => ⟨h b hb.1, hb.2⟩
  · by_cases hex : handled c ex = true
    · simp only [E, hex, if_true]
      exact hcaught ex hex
    · simp only [E, hex, if_false, Bool.false_eq_true]
      rw [hagain ex (by simpa using hex)]
      exact Contract.Triple.throw (fun _ => Contract.stable_alone _) fun _ _ h => h

/-- A loop, with one condition on the private state before and after each turn. -/
theorem forM {ι : Type} {f : ι → Body F β PUnit} (xs : List ι)
    (h : ∀ x, Propagates step handled p (f x) fun _ => p) :
    Propagates step handled p (xs.forM f) fun _ => p :=
  Contract.Triple.forM (I := fun _ b s => p b ∧ Smooth step handled s) xs
    (fun _ => Contract.stable_alone _) fun _ x _ _ => h x

end Propagates

end Interaction
