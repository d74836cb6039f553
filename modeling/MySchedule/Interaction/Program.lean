import Mathlib.Control.Basic
import Mathlib.Data.List.Basic

/-!
# Programs that call their surroundings

A program is a finite tree of calls: each call is answered by a value or by an
exception, and the rest of the program is chosen by that answer. Nothing is said
here about what a call does, so one program can be run alone, beside other
programs on a shared store, or under an adversary that fails its calls.

A `Body` is such a program written with exceptions and with private state that
survives an exception, as the fields of an object do.
-/

namespace Interaction

/-- The calls a program can make, the answer of each, and the exceptions that may
stand in for an answer. -/
structure Effects where
  Call : Type
  Answer : Call → Type
  Failure : Type

/-- A program over `F`: it has ended, or it makes a call and waits for the reply. -/
inductive Program (F : Effects) (α : Type) : Type
  | ret (a : α)
  | call (c : F.Call) (next : Except F.Failure (F.Answer c) → Program F α)

variable {F : Effects} {α γ σ : Type}

namespace Program

/-- Run `p` and go on with `f` on its result. -/
def bind : Program F α → (α → Program F γ) → Program F γ
  | .ret a, f => f a
  | .call c next, f => .call c fun r => (next r).bind f

instance : Monad (Program F) where
  pure := .ret
  bind := .bind

@[simp] theorem pure_eq (a : α) : (pure a : Program F α) = .ret a := rfl

@[simp] theorem ret_bind (a : α) (f : α → Program F γ) : (ret a : Program F α) >>= f = f a := rfl

@[simp] theorem call_bind (c : F.Call) (next : Except F.Failure (F.Answer c) → Program F α)
    (f : α → Program F γ) : call c next >>= f = call c fun r => next r >>= f := rfl

/-- Returning the result of a program changes nothing. -/
theorem bind_ret (p : Program F α) : p.bind ret = p := by
  induction p with
  | ret a => rfl
  | call c next ih => exact congrArg (call c) (funext ih)

/-- Sequencing is associative, call by call. -/
theorem bind_assoc {δ : Type} (p : Program F α) (f : α → Program F γ) (g : γ → Program F δ) :
    (p.bind f).bind g = p.bind fun a => (f a).bind g := by
  induction p with
  | ret a => rfl
  | call c next ih => exact congrArg (call c) (funext ih)

instance : LawfulMonad (Program F) := .mk' _ bind_ret (fun _ _ => rfl) bind_assoc

end Program

/-- What answers the calls, at some state of the surroundings. -/
abbrev Handler (F : Effects) (σ : Type) : Type :=
  (c : F.Call) → σ → Except F.Failure (F.Answer c) × σ

/-- Run a program alone: every call is answered by the handler, in order. -/
def Program.run (h : Handler F σ) : Program F α → σ → α × σ
  | .ret a, s => (a, s)
  | .call c next, s => (next (h c s).1).run h (h c s).2

/-- An ended program leaves the surroundings as they are. -/
@[simp] theorem Program.run_ret (h : Handler F σ) (a : α) (s : σ) :
    (ret a : Program F α).run h s = (a, s) := rfl

/-- A call is answered by the handler, and the rest runs on what it left. -/
@[simp] theorem Program.run_call (h : Handler F σ) (c : F.Call)
    (next : Except F.Failure (F.Answer c) → Program F α) (s : σ) :
    (call c next).run h s = (next (h c s).1).run h (h c s).2 := rfl

/-- Running a sequence runs its parts one after the other. -/
theorem Program.run_bind (h : Handler F σ) (p : Program F α) (f : α → Program F γ) (s : σ) :
    (p >>= f).run h s = (f (p.run h s).1).run h (p.run h s).2 := by
  induction p generalizing s with
  | ret a => rfl
  | call c next ih => exact ih (h c s).1 (h c s).2

/-- A program makes at most `n` calls, whatever it is answered. -/
def Program.CallsAtMost : Program F α → ℕ → Prop
  | .ret _, _ => True
  | .call _ _, 0 => False
  | .call _ next, n + 1 => ∀ r, (next r).CallsAtMost n

/-- A bound on the number of calls may be raised. -/
theorem Program.CallsAtMost.mono {p : Program F α} {m n : ℕ} (h : p.CallsAtMost m)
    (hmn : m ≤ n) : p.CallsAtMost n := by
  induction p generalizing m n with
  | ret a => trivial
  | call c next ih =>
    cases m with
    | zero => exact h.elim
    | succ m =>
      cases n with
      | zero => omega
      | succ n => exact fun r => ih r (h r) (by omega)

/-- The bounds of two programs in sequence add up. -/
theorem Program.CallsAtMost.bind {p : Program F α} {f : α → Program F γ} {m n : ℕ}
    (hp : p.CallsAtMost m) (hf : ∀ a, (f a).CallsAtMost n) : (p >>= f).CallsAtMost (m + n) := by
  induction p generalizing m with
  | ret a => exact (hf a).mono (Nat.le_add_left n m)
  | call c next ih =>
    cases m with
    | zero => exact hp.elim
    | succ m =>
      rw [Nat.succ_add]
      exact fun r => ih r (hp r)

/-- A program with exceptions and with private state `β`, which an exception keeps. -/
abbrev Body (F : Effects) (β α : Type) : Type := ExceptT F.Failure (StateT β (Program F)) α

namespace Body

variable {β : Type}

/-- The tree of calls of a body started in the private state `b`. -/
def start (m : Body F β α) (b : β) : Program F (Except F.Failure α × β) := m.run.run b

/-- Make one call; an exception of the call is thrown. -/
def perform (c : F.Call) : Body F β (F.Answer c) :=
  ExceptT.mk fun b => .call c fun r => .ret (r, b)

@[simp] theorem start_pure (a : α) (b : β) :
    (pure a : Body F β α).start b = .ret (.ok a, b) := rfl

@[simp] theorem start_throw (e : F.Failure) (b : β) :
    (throw e : Body F β α).start b = .ret (.error e, b) := rfl

@[simp] theorem start_get (b : β) : (get : Body F β β).start b = .ret (.ok b, b) := rfl

@[simp] theorem start_set (b' b : β) :
    (set b' : Body F β PUnit).start b = .ret (.ok ⟨⟩, b') := rfl

/-- One call: its reply is the result, an exception included. -/
@[simp] theorem start_perform (c : F.Call) (b : β) :
    (perform c : Body F β _).start b = .call c fun r => .ret (r, b) := rfl

/-- A sequence goes on only after a normal end of its first part. -/
theorem start_bind (m : Body F β α) (f : α → Body F β γ) (b : β) :
    (m >>= f).start b = m.start b >>= fun r =>
      match r.1 with
      | .ok a => (f a).start r.2
      | .error e => .ret (.error e, r.2) := by
  change (m.run.run b >>= fun r => (ExceptT.bindCont f r.1).run r.2) = _
  congr 1
  funext r
  rcases r with ⟨e | a, b'⟩ <;> rfl

/-- A handler starts in the private state its exception left. -/
theorem start_tryCatch (m : Body F β α) (handle : F.Failure → Body F β α) (b : β) :
    (tryCatch m handle).start b = m.start b >>= fun r =>
      match r.1 with
      | .ok a => .ret (.ok a, r.2)
      | .error e => (handle e).start r.2 := by
  change (m.run.run b >>= fun r => _) = _
  congr 1
  funext r
  rcases r with ⟨e | a, b'⟩ <;> rfl

/-- Run a body alone, from a private state and a state of the surroundings. -/
def runWith (h : Handler F σ) (m : Body F β α) (b : β) (s : σ) :
    (Except F.Failure α × β) × σ := (m.start b).run h s

section RunWith

variable (h : Handler F σ) (b b' : β) (s s' : σ)

/-- Returning leaves the private state and the surroundings as they are. -/
@[simp] theorem runWith_pure (a : α) :
    runWith h (pure a : Body F β α) b s = ((.ok a, b), s) := rfl

/-- Throwing leaves the private state and the surroundings as they are. -/
@[simp] theorem runWith_throw (e : F.Failure) :
    runWith h (throw e : Body F β α) b s = ((.error e, b), s) := rfl

/-- One call takes one step of the handler. -/
@[simp] theorem runWith_perform (c : F.Call) :
    runWith h (perform c : Body F β _) b s = (((h c s).1, b), (h c s).2) := rfl

variable {h b b' s s'} {m : Body F β α}

/-- After a normal return the second part runs from where the first has ended. -/
theorem runWith_bind_of_ok {a : α} {f : α → Body F β γ}
    (hm : runWith h m b s = ((.ok a, b'), s')) :
    runWith h (m >>= f) b s = runWith h (f a) b' s' := by
  unfold runWith at hm ⊢
  rw [start_bind, Program.run_bind, hm]

/-- An exception skips the second part. -/
theorem runWith_bind_of_error {e : F.Failure} {f : α → Body F β γ}
    (hm : runWith h m b s = ((.error e, b'), s')) :
    runWith h (m >>= f) b s = ((.error e, b'), s') := by
  unfold runWith at hm ⊢
  rw [start_bind, Program.run_bind, hm]
  rfl

/-- A handler that is not needed is not run. -/
theorem runWith_tryCatch_of_ok {a : α} {handle : F.Failure → Body F β α}
    (hm : runWith h m b s = ((.ok a, b'), s')) :
    runWith h (tryCatch m handle) b s = ((.ok a, b'), s') := by
  unfold runWith at hm ⊢
  rw [start_tryCatch, Program.run_bind, hm]
  rfl

/-- A handler runs from where the exception was thrown. -/
theorem runWith_tryCatch_of_error {e : F.Failure} {handle : F.Failure → Body F β α}
    (hm : runWith h m b s = ((.error e, b'), s')) :
    runWith h (tryCatch m handle) b s = runWith h (handle e) b' s' := by
  unfold runWith at hm ⊢
  rw [start_tryCatch, Program.run_bind, hm]

end RunWith

/-- A body makes at most `n` calls from every private state. -/
def CallsAtMost (m : Body F β α) (n : ℕ) : Prop := ∀ b, (m.start b).CallsAtMost n

/-- A bound on the number of calls may be raised. -/
theorem CallsAtMost.mono {m : Body F β α} {k n : ℕ} (h : m.CallsAtMost k) (hkn : k ≤ n) :
    m.CallsAtMost n := fun b => (h b).mono hkn

theorem CallsAtMost.pure (a : α) (n : ℕ) : (Pure.pure a : Body F β α).CallsAtMost n :=
  fun _ => trivial

theorem CallsAtMost.throw (e : F.Failure) (n : ℕ) :
    (MonadExcept.throw e : Body F β α).CallsAtMost n := fun _ => trivial

theorem CallsAtMost.get : (MonadStateOf.get : Body F β β).CallsAtMost 0 := fun _ => trivial

theorem CallsAtMost.set (b : β) (n : ℕ) :
    (MonadStateOf.set b : Body F β PUnit).CallsAtMost n := fun _ => trivial

/-- A bound for both branches is a bound for the choice. -/
theorem CallsAtMost.ite {c : Prop} [Decidable c] {m m' : Body F β α} {n : ℕ}
    (h : m.CallsAtMost n) (h' : m'.CallsAtMost n) :
    (if c then m else m').CallsAtMost n := by
  split
  · exact h
  · exact h'

/-- A performed call is one call. -/
theorem CallsAtMost.perform (c : F.Call) : (Body.perform c : Body F β _).CallsAtMost 1 :=
  fun _ _ => trivial

/-- The bounds of two bodies in sequence add up. -/
theorem CallsAtMost.bind {m : Body F β α} {f : α → Body F β γ} {k n : ℕ}
    (hm : m.CallsAtMost k) (hf : ∀ a, (f a).CallsAtMost n) : (m >>= f).CallsAtMost (k + n) := by
  intro b
  rw [start_bind]
  refine (hm b).bind fun r => ?_
  cases hr : r.1 with
  | ok a => exact hf a r.2
  | error e => trivial

/-- Dropping the result makes no further call. -/
theorem CallsAtMost.discard {m : Body F β α} {n : ℕ} (hm : m.CallsAtMost n) :
    (discard m).CallsAtMost n := by
  change (m >>= fun _ => Pure.pure PUnit.unit).CallsAtMost n
  exact hm.bind (n := 0) fun _ => .pure _ _

/-- A handler adds its own calls to those of the body. -/
theorem CallsAtMost.tryCatch {m : Body F β α} {handle : F.Failure → Body F β α} {k n : ℕ}
    (hm : m.CallsAtMost k) (hh : ∀ e, (handle e).CallsAtMost n) :
    (MonadExcept.tryCatch m handle).CallsAtMost (k + n) := by
  intro b
  rw [start_tryCatch]
  refine (hm b).bind fun r => ?_
  cases hr : r.1 with
  | ok a => trivial
  | error e => exact hh e r.2

/-- A loop over a list makes at most the calls of its turns. -/
theorem CallsAtMost.forM {ι : Type} {f : ι → Body F β PUnit} {n : ℕ}
    (hf : ∀ x, (f x).CallsAtMost n) (xs : List ι) : (xs.forM f).CallsAtMost (xs.length * n) := by
  induction xs with
  | nil => exact .pure _ _
  | cons x xs ih =>
    have h := (hf x).bind (n := xs.length * n) fun _ => ih
    rw [List.length_cons, Nat.succ_mul, Nat.add_comm]
    exact h

end Body

end Interaction
