import MySchedule.Interaction.Program

/-!
# Contracts of programs beside other programs

A contract fixes how the surroundings may answer each call, what the others may
change between two calls of this program (`rely`) and what each call of this
program may change (`guarantee`). A program meets a contract when every tree path
keeps the guarantee and ends in the postcondition. With nobody else (`alone`) the
rules are those of sequential pre- and postconditions.
-/

namespace Interaction

variable {F : Effects} {α β γ σ τ : Type}

/-- Answers of the surroundings, interference of the others, and own changes. -/
structure Contract (F : Effects) (σ : Type) where
  answers : (c : F.Call) → σ → Except F.Failure (F.Answer c) → σ → Prop
  rely : σ → σ → Prop
  guarantee : σ → σ → Prop
  rely_refl : ∀ s, rely s s
  rely_trans : ∀ {s t u}, rely s t → rely t u → rely s u

namespace Contract

/-- The contract of a program that runs alone. -/
def alone (answers : (c : F.Call) → σ → Except F.Failure (F.Answer c) → σ → Prop) :
    Contract F σ where
  answers := answers
  rely s t := t = s
  guarantee _ _ := True
  rely_refl _ := rfl
  rely_trans h h' := h'.trans h

variable (Γ : Contract F σ)

/-- From the state `s` on, the program keeps the guarantee and ends in `Q`, whatever
the surroundings answer and the others do in between. -/
def Meets : Program F α → (α → σ → Prop) → σ → Prop
  | .ret a, Q, s => ∀ t, Γ.rely s t → Q a t
  | .call c next, Q, s => ∀ t, Γ.rely s t → ∀ r u, Γ.answers c t r u →
      Γ.guarantee t u ∧ Meets (next r) Q u

/-- What the others do is already counted in. -/
theorem Meets.rely {Γ : Contract F σ} {p : Program F α} {Q : α → σ → Prop} {s t : σ}
    (h : Γ.Meets p Q s) (hst : Γ.rely s t) : Γ.Meets p Q t := by
  cases p with
  | ret a => exact fun u hu => h u (Γ.rely_trans hst hu)
  | call c next => exact fun u hu => h u (Γ.rely_trans hst hu)

/-- The result may be weakened. -/
theorem Meets.mono {Γ : Contract F σ} {p : Program F α} {Q Q' : α → σ → Prop} {s : σ}
    (h : Γ.Meets p Q s) (hQ : ∀ a t, Q a t → Q' a t) : Γ.Meets p Q' s := by
  induction p generalizing s with
  | ret a => exact fun t ht => hQ a t (h t ht)
  | call c next ih =>
    intro t ht r u hu
    obtain ⟨hg, hn⟩ := h t ht r u hu
    exact ⟨hg, ih r hn⟩

/-- The rule of sequencing. -/
theorem Meets.bind {Γ : Contract F σ} {p : Program F α} {f : α → Program F γ}
    {R : α → σ → Prop} {Q : γ → σ → Prop} {s : σ} (h : Γ.Meets p R s)
    (hf : ∀ a t, (∀ u, Γ.rely t u → R a u) → Γ.Meets (f a) Q t) : Γ.Meets (p >>= f) Q s := by
  induction p generalizing s with
  | ret a => exact hf a s h
  | call c next ih =>
    intro t ht r u hu
    obtain ⟨hg, hn⟩ := h t ht r u hu
    exact ⟨hg, ih r hn⟩

/-- A property of states that the others cannot break. -/
def Stable (P : σ → Prop) : Prop := ∀ s t, P s → Γ.rely s t → P t

/-- Without others everything is stable. -/
theorem stable_alone {answers : (c : F.Call) → σ → Except F.Failure (F.Answer c) → σ → Prop}
    (P : σ → Prop) : (alone answers).Stable P := by
  rintro s t h rfl
  exact h

/-- The postcondition of a body: one for each way to end. -/
def Outcome {ε : Type} (Q : α → β → σ → Prop) (E : ε → β → σ → Prop) :
    Except ε α × β → σ → Prop
  | (.ok a, b), s => Q a b s
  | (.error e, b), s => E e b s

/-- Started where `P` holds, `m` meets the contract and ends normally in `Q` or by an
exception in `E`. -/
def Triple (P : β → σ → Prop) (m : Body F β α) (Q : α → β → σ → Prop)
    (E : F.Failure → β → σ → Prop) : Prop :=
  ∀ b s, P b s → Γ.Meets (m.start b) (Outcome Q E) s

namespace Triple

variable {Γ : Contract F σ} {P P' : β → σ → Prop} {Q Q' : α → β → σ → Prop}
  {R : γ → β → σ → Prop} {E E' : F.Failure → β → σ → Prop} {m : Body F β α}

theorem consequence (h : Γ.Triple P m Q E) (hP : ∀ b s, P' b s → P b s)
    (hQ : ∀ a b s, Q a b s → Q' a b s) (hE : ∀ e b s, E e b s → E' e b s) :
    Γ.Triple P' m Q' E' := by
  intro b s hs
  refine (h b s (hP b s hs)).mono ?_
  rintro ⟨e | a, b'⟩ t ht
  · exact hE e b' t ht
  · exact hQ a b' t ht

/-- A body that returns at once, its result stable. -/
theorem pure {a : α} (hQ : ∀ b, Γ.Stable (Q a b)) (h : ∀ b s, P b s → Q a b s) :
    Γ.Triple P (Pure.pure a) Q E :=
  fun b s hs t ht => hQ b s t (h b s hs) ht

/-- A body that throws at once, the exception's condition stable. -/
theorem throw {e : F.Failure} (hE : ∀ b, Γ.Stable (E e b)) (h : ∀ b s, P b s → E e b s) :
    Γ.Triple P (MonadExcept.throw e : Body F β α) Q E :=
  fun b s hs t ht => hE b s t (h b s hs) ht

/-- Sequencing: an exception of the first part is an exception of the whole. -/
theorem bind {f : α → Body F β γ} (hm : Γ.Triple P m Q E)
    (hf : ∀ a, Γ.Triple (Q a) (f a) R E) : Γ.Triple P (m >>= f) R E := by
  intro b s hs
  rw [Body.start_bind]
  refine (hm b s hs).bind ?_
  rintro ⟨e | a, b'⟩ t ht
  · exact ht
  · exact hf a b' t (ht t (Γ.rely_refl t))

/-- A handler starts from what the exception left. -/
theorem tryCatch {handle : F.Failure → Body F β α} (hm : Γ.Triple P m Q E)
    (hh : ∀ e, Γ.Triple (E e) (handle e) Q E') :
    Γ.Triple P (MonadExcept.tryCatch m handle) Q E' := by
  intro b s hs
  rw [Body.start_tryCatch]
  refine (hm b s hs).bind ?_
  rintro ⟨e | a, b'⟩ t ht
  · exact hh e b' t (ht t (Γ.rely_refl t))
  · exact ht

/-- Reading the private state fixes it for the rest of the body. -/
theorem get_bind {f : β → Body F β γ}
    (hf : ∀ b, Γ.Triple (fun b' s => b' = b ∧ P b' s) (f b) R E) :
    Γ.Triple P (get >>= f) R E :=
  fun b s hs => hf b b s ⟨rfl, hs⟩

theorem set {b' : β} {Q : PUnit → β → σ → Prop} (hQ : Γ.Stable (Q ⟨⟩ b'))
    (h : ∀ b s, P b s → Q ⟨⟩ b' s) : Γ.Triple P (MonadStateOf.set b' : Body F β PUnit) Q E :=
  fun b s hs t ht => hQ s t (h b s hs) ht

/-- The rule of a call, for conditions the others cannot break. -/
theorem perform {c : F.Call} {Q : F.Answer c → β → σ → Prop} (hP : ∀ b, Γ.Stable (P b))
    (hQ : ∀ a b, Γ.Stable (Q a b)) (hE : ∀ e b, Γ.Stable (E e b))
    (h : ∀ b s r t, P b s → Γ.answers c s r t → Γ.guarantee s t ∧ Outcome Q E (r, b) t) :
    Γ.Triple P (Body.perform c) Q E := by
  intro b s hs t ht r u hu
  obtain ⟨hg, ho⟩ := h b t r u (hP b s t hs ht) hu
  refine ⟨hg, fun v hv => ?_⟩
  cases r with
  | ok a => exact hQ a b u v ho hv
  | error e => exact hE e b u v ho hv

theorem ite {c : Prop} [Decidable c] {m' : Body F β α}
    (ht : c → Γ.Triple P m Q E) (he : ¬c → Γ.Triple P m' Q E) :
    Γ.Triple P (if c then m else m') Q E := by
  by_cases h : c
  · simpa only [if_pos h] using ht h
  · simpa only [if_neg h] using he h

/-- The rule of a loop over a list; the invariant speaks of the turns already made. -/
theorem forM {ι : Type} {f : ι → Body F β PUnit} {I : List ι → β → σ → Prop} (xs : List ι)
    (hI : ∀ b, Γ.Stable (I xs b))
    (step : ∀ pre x post, xs = pre ++ x :: post →
      Γ.Triple (I pre) (f x) (fun _ => I (pre ++ [x])) E) :
    Γ.Triple (I []) (xs.forM f) (fun _ => I xs) E := by
  have from_ : ∀ post pre, xs = pre ++ post →
      Γ.Triple (I pre) (post.forM f) (fun _ => I xs) E := by
    intro post
    induction post with
    | nil =>
      intro pre he
      rw [List.append_nil] at he
      subst he
      exact pure hI fun _ _ h => h
    | cons x post ih =>
      intro pre he
      exact (step pre x post he).bind fun _ => ih (pre ++ [x]) (by simpa using he)
  exact from_ xs [] rfl

end Triple

/-- Every answer of the handler is one the contract allows, `R` relating the two views of
the state. -/
def Covers (Γ : Contract F σ) (h : Handler F τ) (R : τ → σ → Prop) : Prop :=
  ∀ c t s, R t s → ∃ s', Γ.answers c s (h c t).1 s' ∧ R (h c t).2 s'

/-- A run alone ends in the postcondition. -/
theorem Meets.run {Γ : Contract F σ} {h : Handler F τ} {R : τ → σ → Prop} (hc : Γ.Covers h R)
    {p : Program F α} {Q : α → σ → Prop} {s : σ} (hp : Γ.Meets p Q s) {t : τ} (ht : R t s) :
    ∃ s', R (p.run h t).2 s' ∧ Q (p.run h t).1 s' := by
  induction p generalizing s t with
  | ret a => exact ⟨s, ht, hp s (Γ.rely_refl s)⟩
  | call c next ih =>
    obtain ⟨s', hs', ht'⟩ := hc c t s ht
    exact ih _ (hp s (Γ.rely_refl s) _ s' hs').2 ht'

/-- A body run alone ends normally in `Q`, or by an exception in `E`. -/
theorem Triple.runWith {Γ : Contract F σ} {h : Handler F τ} {R : τ → σ → Prop}
    (hc : Γ.Covers h R) {P : β → σ → Prop} {m : Body F β α} {Q : α → β → σ → Prop}
    {E : F.Failure → β → σ → Prop} (hm : Γ.Triple P m Q E) {b : β} {s : σ} {t : τ}
    (ht : R t s) (hs : P b s) :
    ∃ s', R (Body.runWith h m b t).2 s' ∧ Outcome Q E (Body.runWith h m b t).1 s' :=
  (hm b s hs).run hc ht

end Contract

end Interaction
