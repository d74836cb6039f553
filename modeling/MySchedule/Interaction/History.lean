import MySchedule.Interaction.Trace

/-!
# What a program may call, given what it has been answered

A permission says which calls may be made after which events. A trace obeys it
when every call was permitted by the events before it. The rules below carry such
a permission through a body, beside what is known of the trace at each point, so
that a protocol is stated once, for the calls, and proved along the text. Beside
them, Java's `finally`.
-/

namespace Interaction

variable {F : Effects} {α β γ σ τ : Type}

/-- Every call of the trace was permitted when it was made. -/
def Obeys (may : List (Event F) → F.Call → Prop) (trace : List (Event F)) : Prop :=
  ∀ before e after, trace = before ++ e :: after → may before e.call

section

variable {may : List (Event F) → F.Call → Prop} {s : List (Event F)}

/-- No call has broken a rule. -/
theorem obeys_nil : Obeys may ([] : List (Event F)) := by
  intro before e after h
  cases before <;> cases h

/-- One more call. -/
theorem Obeys.snoc (h : Obeys may s) {e : Event F} (he : may s e.call) : Obeys may (s ++ [e]) := by
  intro before e' after hsplit
  rcases List.eq_nil_or_concat' after with rfl | ⟨rest, last, rfl⟩
  · have hboth := List.append_inj' hsplit rfl
    cases hboth.2
    rwa [← hboth.1]
  · have hboth : s ++ [e] = (before ++ e' :: rest) ++ [last] := by
      rw [hsplit, List.append_assoc, List.cons_append]
    exact h before e' rest (List.append_inj' hboth rfl).1

end

/-- Started where `P` holds of the trace, the body makes permitted calls only, and ends
normally in `Q` or by an exception in `E`. -/
def Obedient (may : List (Event F) → F.Call → Prop) (P : β → List (Event F) → Prop)
    (m : Body F β α) (Q : α → β → List (Event F) → Prop)
    (E : F.Failure → β → List (Event F) → Prop) : Prop :=
  observed.Triple (fun b s => P b s ∧ Obeys may s) m (fun a b s => Q a b s ∧ Obeys may s)
    fun ex b s => E ex b s ∧ Obeys may s

namespace Obedient

variable {may : List (Event F) → F.Call → Prop} {P P' : β → List (Event F) → Prop}
  {m : Body F β α} {Q Q' : α → β → List (Event F) → Prop} {R : γ → β → List (Event F) → Prop}
  {E E' : F.Failure → β → List (Event F) → Prop}

theorem consequence (h : Obedient may P m Q E) (hP : ∀ b s, P' b s → P b s)
    (hQ : ∀ a b s, Q a b s → Q' a b s) (hE : ∀ ex b s, E ex b s → E' ex b s) :
    Obedient may P' m Q' E' :=
  Contract.Triple.consequence h (fun b s hs => ⟨hP b s hs.1, hs.2⟩)
    (fun a b s hs => ⟨hQ a b s hs.1, hs.2⟩) fun ex b s hs => ⟨hE ex b s hs.1, hs.2⟩

theorem pre (h : Obedient may P m Q E) (hP : ∀ b s, P' b s → P b s) : Obedient may P' m Q E :=
  h.consequence hP (fun _ _ _ hq => hq) fun _ _ _ he => he

theorem post (h : Obedient may P m Q E) (hQ : ∀ a b s, Q a b s → Q' a b s) :
    Obedient may P m Q' E :=
  h.consequence (fun _ _ hp => hp) hQ fun _ _ _ he => he

theorem pure {a : α} (h : ∀ b s, P b s → Q a b s) : Obedient may P (Pure.pure a) Q E :=
  Contract.Triple.pure (fun _ => Contract.stable_alone _) fun b s hs => ⟨h b s hs.1, hs.2⟩

theorem throw {ex : F.Failure} (h : ∀ b s, P b s → E ex b s) :
    Obedient may P (MonadExcept.throw ex : Body F β α) Q E :=
  Contract.Triple.throw (fun _ => Contract.stable_alone _) fun b s hs => ⟨h b s hs.1, hs.2⟩

/-- Sequencing: an exception of the first part is an exception of the whole. -/
theorem bind {f : α → Body F β γ} (hm : Obedient may P m Q E)
    (hf : ∀ a, Obedient may (Q a) (f a) R E) : Obedient may P (m >>= f) R E :=
  Contract.Triple.bind hm hf

/-- Dropping the result keeps what is known of the history. -/
theorem discard {R : PUnit → β → List (Event F) → Prop} (hm : Obedient may P m Q E)
    (h : ∀ a b s, Q a b s → R ⟨⟩ b s) : Obedient may P (discard m) R E := by
  change Obedient may P (m >>= fun _ => Pure.pure PUnit.unit) R E
  exact hm.bind fun a => pure (h a)

theorem get_bind {f : β → Body F β γ}
    (hf : ∀ b, Obedient may (fun b' s => b' = b ∧ P b' s) (f b) R E) :
    Obedient may P (get >>= f) R E :=
  Contract.Triple.get_bind fun b => Contract.Triple.consequence (hf b)
    (fun _ _ h => ⟨⟨h.1, h.2.1⟩, h.2.2⟩) (fun _ _ _ h => h) fun _ _ _ h => h

theorem set {b' : β} {Q : PUnit → β → List (Event F) → Prop} (h : ∀ b s, P b s → Q ⟨⟩ b' s) :
    Obedient may P (MonadStateOf.set b' : Body F β PUnit) Q E :=
  Contract.Triple.set (Contract.stable_alone _) fun b s hs => ⟨h b s hs.1, hs.2⟩

theorem ite {c : Prop} [Decidable c] {m' : Body F β α} (ht : c → Obedient may P m Q E)
    (he : ¬c → Obedient may P m' Q E) : Obedient may P (if c then m else m') Q E :=
  Contract.Triple.ite ht he

/-- A call is permitted, and its answer is one more event. -/
theorem perform {c : F.Call} {Q : F.Answer c → β → List (Event F) → Prop}
    (hc : ∀ b s, P b s → may s c) (hQ : ∀ b s a, P b s → Q a b (s ++ [⟨c, .ok a⟩]))
    (hE : ∀ b s ex, P b s → E ex b (s ++ [⟨c, .error ex⟩])) :
    Obedient may P (Body.perform c) Q E := by
  refine Contract.Triple.perform (fun _ => Contract.stable_alone _)
    (fun _ _ => Contract.stable_alone _) (fun _ _ => Contract.stable_alone _) ?_
  rintro b s r t ⟨hp, hs⟩ rfl
  refine ⟨trivial, ?_⟩
  cases r with
  | ok a => exact ⟨hQ b s a hp, hs.snoc (hc b s hp)⟩
  | error ex => exact ⟨hE b s ex hp, hs.snoc (hc b s hp)⟩

/-- A handler starts from what the exception left. -/
theorem tryCatch {handle : F.Failure → Body F β α} (hm : Obedient may P m Q E)
    (hh : ∀ ex, Obedient may (E ex) (handle ex) Q E') :
    Obedient may P (MonadExcept.tryCatch m handle) Q E' := Contract.Triple.tryCatch hm hh

/-- A loop; the invariant speaks of the turns already made. -/
theorem forM {ι : Type} {f : ι → Body F β PUnit} {I : List ι → β → List (Event F) → Prop}
    (xs : List ι) (step : ∀ pre x post, xs = pre ++ x :: post →
      Obedient may (I pre) (f x) (fun _ => I (pre ++ [x])) E) :
    Obedient may (I []) (xs.forM f) (fun _ => I xs) E :=
  Contract.Triple.forM (I := fun d b s => I d b s ∧ Obeys may s) xs
    (fun _ => Contract.stable_alone _) step

/-- Of a body run in any surroundings that keep the trace: the trace obeys, and says how the
body ended. -/
theorem runWith (h : Obedient may P m Q E) {h' : Handler F τ} {R : τ → List (Event F) → Prop}
    (hc : (observed (F := F)).Covers h' R) {b : β} {t : τ} (ht : R t []) (hp : P b []) :
    ∃ trace, R (Body.runWith h' m b t).2 trace ∧ Obeys may trace ∧
      Contract.Outcome Q E (Body.runWith h' m b t).1 trace := by
  obtain ⟨trace, hR, hout⟩ := Contract.Triple.runWith hc h ht ⟨hp, obeys_nil⟩
  refine ⟨trace, hR, ?_⟩
  rcases hr : (Body.runWith h' m b t).1 with ⟨ex | a, b'⟩
  · rw [hr] at hout
    exact ⟨hout.2, hout.1⟩
  · rw [hr] at hout
    exact ⟨hout.2, hout.1⟩

/-- What the permitted calls keep, whatever they were answered, a run keeps. -/
theorem keeps {p : F.Call → Prop} (h : Obedient (fun _ => p) P m Q E) {h' : Handler F τ}
    {I : τ → Prop} (hI : ∀ c x, p c → I x → I (h' c x).2) {b : β} {x : τ} (hp : P b [])
    (hx : I x) : I (Body.runWith h' m b x).2 := by
  let R : τ → List (Event F) → Prop := fun y s => (∀ e ∈ s, p e.call) → I y
  have hcov : (observed (F := F)).Covers h' R := by
    refine fun c y s hy => ⟨_, rfl, fun hall => hI c y ?_ (hy fun e he => ?_)⟩
    · exact hall _ (List.mem_append_right _ (List.mem_singleton.mpr rfl))
    · exact hall e (List.mem_append_left _ he)
  obtain ⟨trace, hR, hobeys, _⟩ := h.runWith hcov (show R x [] from fun _ => hx) hp
  refine hR fun e he => ?_
  obtain ⟨before, after, rfl⟩ := List.append_of_mem he
  exact hobeys before e after rfl

end Obedient

/-- Surroundings that answer by what went before, with the trace of the calls. -/
def traced (respond : List (Event F) → (c : F.Call) → Except F.Failure (F.Answer c)) :
    Handler F (List (Event F)) := fun c s => (respond s c, s ++ [⟨c, respond s c⟩])

/-- Recording the events of a traced handler observes what was answered. -/
theorem covers_traced (respond : List (Event F) → (c : F.Call) → Except F.Failure (F.Answer c)) :
    (observed (F := F)).Covers (traced respond) fun y s => y = s := by
  rintro c y s rfl
  exact ⟨_, rfl, rfl⟩

/-- A body run in such surroundings obeys, and ends as its rule says. -/
theorem Obedient.run_traced {may : List (Event F) → F.Call → Prop}
    {P : β → List (Event F) → Prop} {m : Body F β α} {Q : α → β → List (Event F) → Prop}
    {E : F.Failure → β → List (Event F) → Prop} (h : Obedient may P m Q E)
    (respond : List (Event F) → (c : F.Call) → Except F.Failure (F.Answer c)) {b : β}
    (hp : P b []) : Obeys may (Body.runWith (traced respond) m b []).2 ∧
      Contract.Outcome Q E (Body.runWith (traced respond) m b []).1
        (Body.runWith (traced respond) m b []).2 := by
  obtain ⟨trace, htrace, hobeys, hout⟩ := h.runWith (covers_traced respond) (t := []) rfl hp
  have hrun : (Body.runWith (traced respond) m b []).2 = trace := htrace
  rw [hrun]
  exact ⟨hobeys, hout⟩

/-- A body run alone, with its calls recorded, obeys and ends as its rule says. -/
theorem Obedient.run_recorded {may : List (Event F) → F.Call → Prop}
    {P : β → List (Event F) → Prop} {m : Body F β α} {Q : α → β → List (Event F) → Prop}
    {E : F.Failure → β → List (Event F) → Prop} (h : Obedient may P m Q E) (h' : Handler F σ)
    {b : β} (hp : P b []) (s : σ) : Obeys may (m.calls h' b s) ∧
      Contract.Outcome Q E (Body.runWith h' m b s).1 (m.calls h' b s) := by
  obtain ⟨trace, htrace, hobeys, hout⟩ := h.runWith (covers_recorded h' []) (t := (s, [])) rfl hp
  have hcalls : m.calls h' b s = trace := htrace
  have hsame : (Body.runWith (recorded h') m b (s, [])).1 = (Body.runWith h' m b s).1 :=
    (Program.run_recorded h' (m.start b) (s, [])).1
  rw [hcalls, ← hsame]
  exact ⟨hobeys, hout⟩

/-- Java's `try`-`finally`: the last part follows every end of the first, and an exception of
its own replaces what the first one threw. -/
def Body.andFinally (m : Body F β α) (last : Body F β PUnit) : Body F β α := do
  let a ← tryCatch m fun ex => do
    last
    throw ex
  last
  return a

/-- The rule of `finally`: what the last part makes of each end of the first. -/
theorem Obedient.andFinally {may : List (Event F) → F.Call → Prop}
    {P : β → List (Event F) → Prop} {m : Body F β α} {last : Body F β PUnit}
    {Q Q' : α → β → List (Event F) → Prop} {E E' : F.Failure → β → List (Event F) → Prop}
    (hm : Obedient may P m Q E) (hok : ∀ a, Obedient may (Q a) last (fun _ => Q' a) E')
    (hex : ∀ ex, Obedient may (E ex) last (fun _ => E' ex) E') :
    Obedient may P (m.andFinally last) Q' E' := by
  refine Obedient.bind (Obedient.tryCatch hm fun ex => ?_) fun a => ?_
  · exact (hex ex).bind fun _ => Obedient.throw fun _ _ h => h
  · exact (hok a).bind fun _ => Obedient.pure fun _ _ h => h

/-- On every path the program makes calls in `p` only and ends with a result in `q`. -/
def Program.Only (p : F.Call → Prop) (q : α → Prop) : Program F α → Prop
  | .ret a => q a
  | .call c next => p c ∧ ∀ r, (next r).Only p q

/-- Two programs in sequence make only the calls that either may make. -/
theorem Program.Only.bind {p : F.Call → Prop} {q : α → Prop} {q' : γ → Prop} {m : Program F α}
    {f : α → Program F γ} (h : m.Only p q) (hf : ∀ a, q a → (f a).Only p q') :
    (m >>= f).Only p q' := by
  induction m with
  | ret a => exact hf a h
  | call c next ih => exact ⟨h.1, fun r => ih r (h.2 r)⟩

/-- Calls and results in more are calls and results in those. -/
theorem Program.Only.mono {p p' : F.Call → Prop} {q q' : α → Prop} {m : Program F α}
    (h : m.Only p q) (hp : ∀ c, p c → p' c) (hq : ∀ a, q a → q' a) : m.Only p' q' := by
  induction m with
  | ret a => exact hq a h
  | call c next ih => exact ⟨hp c h.1, fun r => ih r (h.2 r)⟩

/-- The body makes calls in `p` only, leaves the private state alone, and returns values in
`q` only. -/
def Body.Bystander (p : F.Call → Prop) (q : α → Prop) (m : Body F β α) : Prop :=
  ∀ b, (m.start b).Only p fun r => r.2 = b ∧ ∀ a, r.1 = .ok a → q a

namespace Body.Bystander

variable {p p' : F.Call → Prop} {q : α → Prop} {r : γ → Prop} {m : Body F β α}

/-- A bystander to fewer calls is one to more. -/
theorem mono (hm : Body.Bystander p q m) (hp : ∀ c, p c → p' c) : Body.Bystander p' q m :=
  fun b => (hm b).mono hp fun _ h => h

theorem pure {a : α} (h : q a) : Body.Bystander p q (Pure.pure a : Body F β α) := by
  intro b
  refine ⟨rfl, fun a' ha' => ?_⟩
  cases ha'
  exact h

theorem throw (ex : F.Failure) : Body.Bystander p q (MonadExcept.throw ex : Body F β α) :=
  fun _ => ⟨rfl, fun _ h => by cases h⟩

/-- A single call of those allowed. -/
theorem perform {c : F.Call} {q : F.Answer c → Prop} (hc : p c) (h : ∀ a, q a) :
    Body.Bystander p q (Body.perform c : Body F β _) :=
  fun _ => ⟨hc, fun _ => ⟨rfl, fun a _ => h a⟩⟩

/-- Bystanders in sequence are one bystander. -/
theorem bind {f : α → Body F β γ} (hm : Body.Bystander p q m)
    (hf : ∀ a, q a → Body.Bystander p r (f a)) : Body.Bystander p r (m >>= f) := by
  intro b
  rw [Body.start_bind]
  refine (hm b).bind ?_
  rintro ⟨ex | a, b'⟩ ⟨hb, hq⟩
  · exact ⟨hb, fun _ h => by cases h⟩
  · obtain rfl : b' = b := hb
    exact hf a (hq a rfl) b'

/-- A bystander remains one when its result is dropped. -/
theorem discard {r : PUnit → Prop} (hm : Body.Bystander p q m) (h : r ⟨⟩) :
    Body.Bystander p r (discard m) := by
  change Body.Bystander p r (m >>= fun _ => Pure.pure PUnit.unit)
  exact hm.bind fun _ _ => pure h

/-- A bystander whose handlers are bystanders. -/
theorem tryCatch {handle : F.Failure → Body F β α} (hm : Body.Bystander p q m)
    (hh : ∀ ex, Body.Bystander p q (handle ex)) :
    Body.Bystander p q (MonadExcept.tryCatch m handle) := by
  intro b
  rw [Body.start_tryCatch]
  refine (hm b).bind ?_
  rintro ⟨ex | a, b'⟩ ⟨hb, hq⟩
  · obtain rfl : b' = b := hb
    exact hh ex b'
  · exact ⟨hb, hq⟩

theorem ite {c : Prop} [Decidable c] {m' : Body F β α} (ht : c → Body.Bystander p q m)
    (he : ¬c → Body.Bystander p q m') : Body.Bystander p q (if c then m else m') := by
  split
  · next h => exact ht h
  · next h => exact he h

/-- A loop over bystanders. -/
theorem forM {ι : Type} {f : ι → Body F β PUnit} (xs : List ι)
    (hf : ∀ x, Body.Bystander p (fun _ => True) (f x)) :
    Body.Bystander p (fun _ => True) (xs.forM f) := by
  induction xs with
  | nil => exact pure trivial
  | cons x xs ih => exact (hf x).bind fun _ _ => ih

end Body.Bystander

/-- What the calls of a bystander neither break nor are forbidden by, holds afterwards. -/
theorem Obedient.of_bystander {may : List (Event F) → F.Call → Prop} {p : F.Call → Prop}
    {q : α → Prop} {m : Body F β α} (hm : m.Bystander p q) {K : β → List (Event F) → Prop}
    (hmay : ∀ b s c, K b s → p c → may s c)
    (hK : ∀ b s e, K b s → p e.call → K b (s ++ [e])) :
    Obedient may K m (fun a b s => K b s ∧ q a) fun _ => K := by
  have program : ∀ (n : Program F (Except F.Failure α × β)) (b : β) (s : List (Event F)),
      n.Only p (fun r => r.2 = b ∧ ∀ a, r.1 = .ok a → q a) → K b s → Obeys may s →
      observed.Meets n (Contract.Outcome (fun a b s => (K b s ∧ q a) ∧ Obeys may s)
        fun _ b s => K b s ∧ Obeys may s) s := by
    intro n
    induction n with
    | ret r =>
      rintro b s ⟨hb, hq⟩ hs ho t rfl
      rcases r with ⟨ex | a, b'⟩
      · obtain rfl : b' = b := hb
        exact ⟨hs, ho⟩
      · obtain rfl : b' = b := hb
        exact ⟨⟨hs, hq a rfl⟩, ho⟩
    | call c next ih =>
      rintro b s ⟨hc, hnext⟩ hs ho t rfl r u rfl
      refine ⟨trivial, ih r b _ (hnext r) (hK b t ⟨c, r⟩ hs hc) (ho.snoc (hmay b t c hs hc))⟩
  exact fun b s hs => program _ b s (hm b) hs.1 hs.2

end Interaction
