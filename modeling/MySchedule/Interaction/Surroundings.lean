import MySchedule.Interaction.Trace

/-!
# Bodies in given surroundings

Where it is fixed how every call is answered, a body has pre- and postconditions
in the plain sense. Surroundings may be faulty: then some calls, given by their
number, fail in place of what they do.
-/

namespace Interaction

variable {F : Effects} {α β γ σ : Type}

/-- The contract of a body that runs alone in the surroundings `h`. -/
def within (h : Handler F σ) : Contract F σ := .alone fun c s r t => h c s = (r, t)

/-- Started where `P` holds, the body ends normally in `Q` or by an exception in `E`. -/
def Achieves (h : Handler F σ) (P : β → σ → Prop) (m : Body F β α) (Q : α → β → σ → Prop)
    (E : F.Failure → β → σ → Prop) : Prop := (within h).Triple P m Q E

namespace Achieves

variable {h : Handler F σ} {P P' : β → σ → Prop} {Q Q' : α → β → σ → Prop}
  {R : γ → β → σ → Prop} {E E' : F.Failure → β → σ → Prop} {m : Body F β α}

theorem consequence (hm : Achieves h P m Q E) (hP : ∀ b s, P' b s → P b s)
    (hQ : ∀ a b s, Q a b s → Q' a b s) (hE : ∀ ex b s, E ex b s → E' ex b s) :
    Achieves h P' m Q' E' := Contract.Triple.consequence hm hP hQ hE

theorem pre (hm : Achieves h P m Q E) (hP : ∀ b s, P' b s → P b s) : Achieves h P' m Q E :=
  hm.consequence hP (fun _ _ _ hq => hq) fun _ _ _ he => he

theorem post (hm : Achieves h P m Q E) (hQ : ∀ a b s, Q a b s → Q' a b s) :
    Achieves h P m Q' E :=
  hm.consequence (fun _ _ hp => hp) hQ fun _ _ _ he => he

/-- A value that the precondition speaks of is fixed. -/
theorem exists_pre {δ : Type} {P : δ → β → σ → Prop} (hm : ∀ d, Achieves h (P d) m Q E) :
    Achieves h (fun b s => ∃ d, P d b s) m Q E := fun b s ⟨d, hd⟩ => hm d b s hd

/-- A fact of the precondition that is not about a state. -/
theorem of_fact {p : Prop} (hm : p → Achieves h P m Q E) :
    Achieves h (fun b s => p ∧ P b s) m Q E := fun b s ⟨hp, hs⟩ => hm hp b s hs

theorem pure {a : α} (hQ : ∀ b s, P b s → Q a b s) : Achieves h P (Pure.pure a) Q E :=
  Contract.Triple.pure (fun _ => Contract.stable_alone _) hQ

theorem throw {ex : F.Failure} (hE : ∀ b s, P b s → E ex b s) :
    Achieves h P (MonadExcept.throw ex : Body F β α) Q E :=
  Contract.Triple.throw (fun _ => Contract.stable_alone _) hE

/-- Sequencing: an exception of the first part is an exception of the whole. -/
theorem bind {f : α → Body F β γ} (hm : Achieves h P m Q E)
    (hf : ∀ a, Achieves h (Q a) (f a) R E) : Achieves h P (m >>= f) R E :=
  Contract.Triple.bind hm hf

/-- Dropping the result keeps what is known of the surroundings. -/
theorem discard {R : PUnit → β → σ → Prop} (hm : Achieves h P m Q E)
    (hR : ∀ a b s, Q a b s → R ⟨⟩ b s) : Achieves h P (discard m) R E := by
  change Achieves h P (m >>= fun _ => Pure.pure PUnit.unit) R E
  exact hm.bind fun a => pure (hR a)

theorem get_bind {f : β → Body F β γ}
    (hf : ∀ b, Achieves h (fun b' s => b' = b ∧ P b' s) (f b) R E) :
    Achieves h P (get >>= f) R E := Contract.Triple.get_bind hf

theorem set {b' : β} {Q : PUnit → β → σ → Prop} (hQ : ∀ b s, P b s → Q ⟨⟩ b' s) :
    Achieves h P (MonadStateOf.set b' : Body F β PUnit) Q E :=
  Contract.Triple.set (Contract.stable_alone _) hQ

theorem ite {c : Prop} [Decidable c] {m' : Body F β α} (ht : c → Achieves h P m Q E)
    (he : ¬c → Achieves h P m' Q E) : Achieves h P (if c then m else m') Q E :=
  Contract.Triple.ite ht he

/-- A call does what the surroundings do. -/
theorem perform {c : F.Call} {Q : F.Answer c → β → σ → Prop}
    (hQ : ∀ b s a t, P b s → h c s = (.ok a, t) → Q a b t)
    (hE : ∀ b s ex t, P b s → h c s = (.error ex, t) → E ex b t) :
    Achieves h P (Body.perform c) Q E := by
  refine Contract.Triple.perform (fun _ => Contract.stable_alone _)
    (fun _ _ => Contract.stable_alone _) (fun _ _ => Contract.stable_alone _) ?_
  intro b s r t hs hr
  refine ⟨trivial, ?_⟩
  cases r with
  | ok a => exact hQ b s a t hs hr
  | error ex => exact hE b s ex t hs hr

/-- A handler starts from what the exception left. -/
theorem tryCatch {handle : F.Failure → Body F β α} (hm : Achieves h P m Q E)
    (hh : ∀ ex, Achieves h (E ex) (handle ex) Q E') :
    Achieves h P (MonadExcept.tryCatch m handle) Q E' := Contract.Triple.tryCatch hm hh

/-- How a run ends. -/
theorem run (hm : Achieves h P m Q E) {b : β} {s : σ} (hs : P b s) :
    Contract.Outcome Q E (Body.runWith h m b s).1 (Body.runWith h m b s).2 := by
  have hcov : (within h).Covers h Eq := by
    rintro c t s rfl
    exact ⟨_, rfl, rfl⟩
  obtain ⟨t, ht, hout⟩ := Contract.Triple.runWith hcov hm rfl hs
  rwa [ht]

/-- What is achieved in some surroundings is achieved where the calls are recorded too. -/
theorem recorded (hm : Achieves h P m Q E) :
    Achieves (recorded h) (fun b x => P b x.1) m (fun a b x => Q a b x.1)
      fun ex b x => E ex b x.1 := by
  have program : ∀ (p : Program F (Except F.Failure α × β)) (x : σ × List (Event F)),
      (within h).Meets p (Contract.Outcome Q E) x.1 →
      (within (Interaction.recorded h)).Meets p
        (Contract.Outcome (fun a b x => Q a b x.1) fun ex b x => E ex b x.1) x := by
    intro p
    induction p with
    | ret r =>
      rintro _ hp x rfl
      rcases r with ⟨ex | a, b⟩
      · exact hp x.1 rfl
      · exact hp x.1 rfl
    | call c next ih =>
      rintro _ hp x rfl r y hy
      obtain ⟨hcall, -⟩ := recorded_eq_iff.mp hy
      exact ⟨trivial, ih r y (hp x.1 rfl r y.1 hcall).2⟩
  exact fun b x hx => program (m.start b) x (hm b x.1 hx)

/-- The run of a body with its calls. -/
theorem run_recorded {P : β → σ × List (Event F) → Prop}
    {Q : α → β → σ × List (Event F) → Prop} {E : F.Failure → β → σ × List (Event F) → Prop}
    (hm : Achieves (Interaction.recorded h) P m Q E) {b : β} {s : σ} (hs : P b (s, [])) :
    Contract.Outcome Q E (Body.runWith h m b s).1
      ((Body.runWith h m b s).2, m.calls h b s) := by
  have hrun := hm.run hs
  obtain ⟨hresult, hstate⟩ := Program.run_recorded h (m.start b) (s, [])
  have hfirst : (Body.runWith (Interaction.recorded h) m b (s, [])).1 =
      (Body.runWith h m b s).1 := hresult
  have hsecond : (Body.runWith (Interaction.recorded h) m b (s, [])).2 =
      ((Body.runWith h m b s).2, m.calls h b s) := Prod.ext hstate rfl
  rwa [hfirst, hsecond] at hrun

end Achieves

/-- Surroundings in which calls fail as given, by their number; `lose` is what a call that fails
makes of the state. -/
def faulty (fails : Nat → F.Call → Option F.Failure) (lose : Nat → F.Call → σ → σ)
    (h : Handler F σ) : Handler F (σ × Nat) := fun c x =>
  match fails x.2 c with
  | some ex => (.error ex, (lose x.2 c x.1, x.2 + 1))
  | none => ((h c x.1).1, ((h c x.1).2, x.2 + 1))

section

variable {fails : Nat → F.Call → Option F.Failure} {lose : Nat → F.Call → σ → σ}
  {h : Handler F σ} {c : F.Call} {x y : σ × Nat}

/-- A call that is answered was answered soundly. -/
theorem faulty_ok {a : F.Answer c} (hc : faulty fails lose h c x = (.ok a, y)) :
    h c x.1 = (.ok a, y.1) := by
  unfold faulty at hc
  split at hc
  · cases hc
  · obtain ⟨hr, hy⟩ := Prod.mk.inj hc
    exact Prod.ext hr (congrArg Prod.fst hy)

/-- A call that fails is at fault itself, or fails in sound surroundings too. -/
theorem faulty_error {ex : F.Failure} (hc : faulty fails lose h c x = (.error ex, y)) :
    fails x.2 c = some ex ∧ y.1 = lose x.2 c x.1 ∨ h c x.1 = (.error ex, y.1) := by
  unfold faulty at hc
  split at hc
  · next hfails =>
    obtain ⟨hr, hy⟩ := Prod.mk.inj hc
    cases hr
    exact Or.inl ⟨hfails, (congrArg Prod.fst hy).symm⟩
  · obtain ⟨hr, hy⟩ := Prod.mk.inj hc
    exact Or.inr (Prod.ext hr (congrArg Prod.fst hy))

end

end Interaction
