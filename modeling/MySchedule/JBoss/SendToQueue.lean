import MySchedule.Interaction.History
import MySchedule.Java.Throwable

/-!
# A message to a queue

The program opens a naming context and a connection, sends one message, and closes both in
a `finally`. A run makes its steps up to the first that fails, and closes what it has
opened.
-/

namespace MySchedule.JBoss

open Interaction Java

/-- An object that a call has answered with. -/
abbrev Ref : Type := Nat

/-- The calls on JNDI and JMS; a lookup is one with the cast of its answer. -/
inductive JmsCall
  | newInitialContext
  | lookup (ctx : Ref) (name : String)
  | createConnection (cf : Ref)
  | createSession (conn : Ref)
  | createTextMessage (sess : Ref) (text : String)
  | createProducer (sess jmsDest : Ref)
  | send (producer txtMsg : Ref)
  | closeProducer (producer : Ref)
  | closeSession (sess : Ref)
  | closeContext (ctx : Ref)
  | closeConnection (conn : Ref)
  deriving DecidableEq, Repr

def JmsCall.Answer : JmsCall → Type
  | .send .. | .closeProducer _ | .closeSession _ | .closeContext _ | .closeConnection _ => Unit
  | _ => Ref

abbrev jmsCalls : Effects := ⟨JmsCall, JmsCall.Answer, Throwable⟩

/-- The variables that the `finally` reads, null or not. -/
structure Variables where
  ctx : Option Ref
  conn : Option Ref
  deriving DecidableEq, Repr

abbrev SendM (α : Type) : Type := Body jmsCalls Variables α

def queueName (args : List String) : String := args[0]?.getD "/queue/ExampleQueue"

def text (args : List String) : String := args[1]?.getD "Just a test msg"

/-- `catch (Exception e)` with a line for the log. -/
def logged (e : Throwable) : SendM Unit := if e.isError then throw e else pure ()

def closeContext : Option Ref → SendM Unit
  | none => pure ()
  | some ctx => tryCatch (Body.perform (F := jmsCalls) (.closeContext ctx)) logged

def closeConnection : Option Ref → SendM Unit
  | none => pure ()
  | some conn => tryCatch (Body.perform (F := jmsCalls) (.closeConnection conn)) logged

/-- The block of the `finally`. -/
def closeAll : SendM Unit := do
  let b ← get
  closeContext b.ctx
  closeConnection b.conn

/-- The block of the `try`. -/
def sendText (args : List String) : SendM Unit := do
  let ctx ← Body.perform (F := jmsCalls) .newInitialContext
  set (⟨some ctx, none⟩ : Variables)
  let cf ← Body.perform (F := jmsCalls) (.lookup ctx "/ConnectionFactory")
  let jmsDest ← Body.perform (F := jmsCalls) (.lookup ctx (queueName args))
  let conn ← Body.perform (F := jmsCalls) (.createConnection cf)
  set (⟨some ctx, some conn⟩ : Variables)
  let sess ← Body.perform (F := jmsCalls) (.createSession conn)
  let txtMsg ← Body.perform (F := jmsCalls) (.createTextMessage sess (text args))
  let producer ← Body.perform (F := jmsCalls) (.createProducer sess jmsDest)
  Body.perform (F := jmsCalls) (.send producer txtMsg)
  Body.perform (F := jmsCalls) (.closeProducer producer)
  Body.perform (F := jmsCalls) (.closeSession sess)

def sendToQueue (args : List String) : SendM Unit := (sendText args).andFinally closeAll

/-! ## The course of a run -/

/-- The objects of a run. -/
structure Refs where
  ctx : Ref
  cf : Ref
  jmsDest : Ref
  conn : Ref
  sess : Ref
  txtMsg : Ref
  producer : Ref

/-- The steps of the `try` block, none of which fails. -/
def steps (args : List String) (r : Refs) : List (Event jmsCalls) := [
  ⟨.newInitialContext, .ok r.ctx⟩,
  ⟨.lookup r.ctx "/ConnectionFactory", .ok r.cf⟩,
  ⟨.lookup r.ctx (queueName args), .ok r.jmsDest⟩,
  ⟨.createConnection r.cf, .ok r.conn⟩,
  ⟨.createSession r.conn, .ok r.sess⟩,
  ⟨.createTextMessage r.sess (text args), .ok r.txtMsg⟩,
  ⟨.createProducer r.sess r.jmsDest, .ok r.producer⟩,
  ⟨.send r.producer r.txtMsg, .ok ()⟩,
  ⟨.closeProducer r.producer, .ok ()⟩,
  ⟨.closeSession r.sess, .ok ()⟩]

/-- The variables after a number of steps. -/
def variablesAfter (n : Nat) (r : Refs) : Variables :=
  ⟨if 1 ≤ n then some r.ctx else none, if 4 ≤ n then some r.conn else none⟩

/-- The `try` block has made its steps up to the first that failed. -/
inductive Attempted (args : List String) :
    Except Throwable Unit → Variables → List (Event jmsCalls) → Prop
  | sent (r : Refs) : Attempted args (.ok ()) (variablesAfter 10 r) (steps args r)
  | failed (r : Refs) (n : Nat) (e : Event jmsCalls) (h : (steps args r)[n]? = some e)
    (ex : Throwable) : Attempted args (.error ex) (variablesAfter n r)
      ((steps args r).take n ++ [⟨e.call, .error ex⟩])

/-- An error replaces how the `try` block ended. -/
def orError (closed ended : Except Throwable Unit) : Except Throwable Unit :=
  match closed with
  | .error ex => if ex.isError then .error ex else ended
  | .ok _ => ended

/-- What is closed after a `try` block that ended so, and how the program ends. -/
inductive Closing (ended : Except Throwable Unit) :
    Variables → List (Event jmsCalls) → Except Throwable Unit → Prop
  | nothing : Closing ended ⟨none, none⟩ [] ended
  | context (ctx : Ref) (r : Except Throwable Unit) :
    Closing ended ⟨some ctx, none⟩ [⟨.closeContext ctx, r⟩] (orError r ended)
  | contextOnly (ctx conn : Ref) (ex : Throwable) (h : ex.isError = true) :
    Closing ended ⟨some ctx, some conn⟩ [⟨.closeContext ctx, .error ex⟩] (.error ex)
  | both (ctx conn : Ref) (r r' : Except Throwable Unit) (h : orError r (.ok ()) = .ok ()) :
    Closing ended ⟨some ctx, some conn⟩
      [⟨.closeContext ctx, r⟩, ⟨.closeConnection conn, r'⟩] (orError r' ended)

/-- How a program ends whose calls were these. -/
def Ended (args : List String) (result : Except Throwable Unit) (s : List (Event jmsCalls)) :
    Prop :=
  ∃ b ended before after, Attempted args ended b before ∧ Closing ended b after result ∧
    s = before ++ after

/-- A body without a permission to ask for. -/
abbrev Does {α : Type} (P : Variables → List (Event jmsCalls) → Prop) (m : SendM α)
    (Q : α → Variables → List (Event jmsCalls) → Prop)
    (E : Throwable → Variables → List (Event jmsCalls) → Prop) : Prop :=
  Obedient (fun _ _ => True) P m Q E

section

variable {args : List String}

/-- The state after a number of steps. -/
def Done (args : List String) (n : Nat) (r : Refs) (b : Variables)
    (s : List (Event jmsCalls)) : Prop :=
  b = variablesAfter n r ∧ s = (steps args r).take n

/-- The next step, of which only the answer is open. -/
theorem step_does (n : Nat) (r : Refs) {c : JmsCall} {x : Except Throwable c.Answer}
    (h : (steps args r)[n]? = some ⟨c, x⟩) :
    Does (Done args n r) (Body.perform (F := jmsCalls) c)
      (fun a b s => b = variablesAfter n r ∧ s = (steps args r).take n ++ [⟨c, .ok a⟩])
      fun ex => Attempted args (.error ex) := by
  refine Obedient.perform (fun _ _ _ => trivial) ?_ ?_
  · rintro _ _ a ⟨rfl, rfl⟩
    exact ⟨rfl, rfl⟩
  · rintro _ _ ex ⟨rfl, rfl⟩
    exact .failed r n ⟨c, x⟩ h ex

theorem sendText_does : Does (fun b s => b = ⟨none, none⟩ ∧ s = []) (sendText args)
    (fun _ => Attempted args (.ok ())) fun ex => Attempted args (.error ex) := by
  refine ((step_does 0 ⟨0, 0, 0, 0, 0, 0, 0⟩ rfl).pre fun _ _ h => h).bind fun ctx => ?_
  refine (Obedient.set (Q := fun _ => Done args 1 ⟨ctx, 0, 0, 0, 0, 0, 0⟩) ?_).bind fun _ => ?_
  · rintro _ _ ⟨rfl, rfl⟩
    exact ⟨rfl, rfl⟩
  refine (step_does 1 ⟨ctx, 0, 0, 0, 0, 0, 0⟩ rfl).bind fun cf => ?_
  refine ((step_does 2 ⟨ctx, cf, 0, 0, 0, 0, 0⟩ rfl).pre fun _ _ h => h).bind fun jmsDest => ?_
  refine ((step_does 3 ⟨ctx, cf, jmsDest, 0, 0, 0, 0⟩ rfl).pre fun _ _ h => h).bind fun conn => ?_
  refine (Obedient.set (Q := fun _ => Done args 4 ⟨ctx, cf, jmsDest, conn, 0, 0, 0⟩) ?_).bind
    fun _ => ?_
  · rintro _ _ ⟨rfl, rfl⟩
    exact ⟨rfl, rfl⟩
  refine (step_does 4 ⟨ctx, cf, jmsDest, conn, 0, 0, 0⟩ rfl).bind fun sess => ?_
  refine ((step_does 5 ⟨ctx, cf, jmsDest, conn, sess, 0, 0⟩ rfl).pre fun _ _ h => h).bind
    fun txtMsg => ?_
  refine ((step_does 6 ⟨ctx, cf, jmsDest, conn, sess, txtMsg, 0⟩ rfl).pre fun _ _ h => h).bind
    fun producer => ?_
  let r : Refs := ⟨ctx, cf, jmsDest, conn, sess, txtMsg, producer⟩
  refine ((step_does 7 r rfl).pre fun _ _ h => h).bind fun _ => ?_
  refine ((step_does 8 r rfl).pre fun _ _ h => h).bind fun _ => ?_
  refine (step_does 9 r rfl).consequence (fun _ _ h => h) ?_ fun _ _ _ h => h
  rintro _ _ _ ⟨rfl, rfl⟩
  exact .sent r

/-- A connection is never open without a context. -/
theorem Attempted.ctx_ne_none {ended : Except Throwable Unit} {b : Variables}
    {s : List (Event jmsCalls)} (h : Attempted args ended b s) (hconn : b.conn ≠ none) :
    b.ctx ≠ none := by
  have hvariables : ∀ n r, (variablesAfter n r).conn ≠ none → (variablesAfter n r).ctx ≠ none := by
    intro n r hn
    have hfour : 4 ≤ n := by
      by_contra hlt
      exact hn (if_neg hlt)
    have hone : 1 ≤ n := by omega
    simp [variablesAfter, hone]
  cases h with
  | sent r => exact hvariables 10 r hconn
  | failed r n e h ex => exact hvariables n r hconn

/-- A call whose exception is logged, unless it is an error. -/
theorem logged_does {m : SendM Unit} {P : Variables → List (Event jmsCalls) → Prop}
    {e : Except Throwable Unit → Event jmsCalls}
    (hm : Does P m (fun u b s => ∃ s₀, P b s₀ ∧ s = s₀ ++ [e (.ok u)])
      fun ex b s => ∃ s₀, P b s₀ ∧ s = s₀ ++ [e (.error ex)]) :
    Does P (tryCatch m logged)
      (fun _ b s => ∃ s₀ r, P b s₀ ∧ s = s₀ ++ [e r] ∧ orError r (.ok ()) = .ok ())
      fun ex b s => ∃ s₀, P b s₀ ∧ s = s₀ ++ [e (.error ex)] ∧ ex.isError = true := by
  refine Obedient.tryCatch (hm.post ?_) fun ex =>
    Obedient.ite (fun hex => Obedient.throw ?_) fun hex => Obedient.pure ?_
  · rintro u b s ⟨s₀, hp, hs⟩
    exact ⟨s₀, .ok u, hp, hs, rfl⟩
  · rintro b s ⟨s₀, hp, hs⟩
    exact ⟨s₀, hp, hs, hex⟩
  · rintro b s ⟨s₀, hp, hs⟩
    exact ⟨s₀, .error ex, hp, hs, if_neg hex⟩

theorem closeContext_does (ctx : Ref) {P : Variables → List (Event jmsCalls) → Prop} :
    Does P (closeContext (some ctx))
      (fun _ b s => ∃ s₀ r, P b s₀ ∧ s = s₀ ++ [⟨.closeContext ctx, r⟩] ∧
        orError r (.ok ()) = .ok ())
      fun ex b s => ∃ s₀, P b s₀ ∧ s = s₀ ++ [⟨.closeContext ctx, .error ex⟩] ∧
        ex.isError = true :=
  logged_does (Obedient.perform (fun _ _ _ => trivial) (fun _ s _ h => ⟨s, h, rfl⟩)
    fun _ s _ h => ⟨s, h, rfl⟩)

theorem closeConnection_does (conn : Ref) {P : Variables → List (Event jmsCalls) → Prop} :
    Does P (closeConnection (some conn))
      (fun _ b s => ∃ s₀ r, P b s₀ ∧ s = s₀ ++ [⟨.closeConnection conn, r⟩] ∧
        orError r (.ok ()) = .ok ())
      fun ex b s => ∃ s₀, P b s₀ ∧ s = s₀ ++ [⟨.closeConnection conn, .error ex⟩] ∧
        ex.isError = true :=
  logged_does (Obedient.perform (fun _ _ _ => trivial) (fun _ s _ h => ⟨s, h, rfl⟩)
    fun _ s _ h => ⟨s, h, rfl⟩)

/-- What no error follows leaves how the block ended. -/
theorem orError_eq {r ended : Except Throwable Unit} (h : orError r (.ok ()) = .ok ()) :
    orError r ended = ended := by
  cases r with
  | ok u => rfl
  | error ex =>
    simp only [orError] at h ⊢
    split at h
    · cases h
    · next hex => rw [if_neg hex]

theorem orError_error {ex : Throwable} {ended : Except Throwable Unit}
    (h : ex.isError = true) : orError (.error ex) ended = .error ex := if_pos h

theorem closeAll_does (ended : Except Throwable Unit) :
    Does (Attempted args ended) closeAll (fun _ _ => Ended args ended)
      fun ex _ => Ended args (.error ex) := by
  refine Obedient.get_bind fun b => ?_
  obtain ⟨ctx, conn⟩ := b
  cases ctx with
  | none =>
    cases conn with
    | none =>
      refine Obedient.pure ?_
      rintro _ s ⟨rfl, h⟩
      exact ⟨_, ended, s, [], h, .nothing, (List.append_nil s).symm⟩
    | some conn =>
      rintro _ s ⟨⟨rfl, h⟩, _⟩
      exact absurd rfl (h.ctx_ne_none (Option.some_ne_none conn))
  | some ctx =>
    have hcontext : ∀ {ex b s}, (∃ s₀, (b = ⟨some ctx, conn⟩ ∧ Attempted args ended b s₀) ∧
        s = s₀ ++ [⟨.closeContext ctx, .error ex⟩] ∧ ex.isError = true) →
          Ended args (.error ex) s := by
      rintro ex _ _ ⟨s, ⟨rfl, h⟩, rfl, hex⟩
      refine ⟨_, ended, s, _, h, ?_, rfl⟩
      cases conn with
      | none =>
        have hclosed : Closing ended _ _ _ := .context ctx (.error ex)
        rwa [orError_error hex] at hclosed
      | some conn => exact .contextOnly ctx conn ex hex
    refine ((closeContext_does ctx).consequence (fun _ _ h => h) (fun _ _ _ h => h)
      fun _ _ _ => hcontext).bind fun _ => ?_
    cases conn with
    | none =>
      refine Obedient.pure ?_
      rintro _ _ ⟨s, r, ⟨rfl, h⟩, rfl, hr⟩
      refine ⟨_, ended, s, _, h, ?_, rfl⟩
      have hclosed : Closing ended _ _ _ := .context ctx r
      rwa [orError_eq hr] at hclosed
    | some conn =>
      refine (closeConnection_does conn).consequence (fun _ _ h => h) ?_ ?_
      · rintro _ _ _ ⟨_, r', ⟨s, r, ⟨rfl, h⟩, rfl, hr⟩, rfl, hr'⟩
        refine ⟨_, ended, s, _, h, ?_, List.append_assoc ..⟩
        have hclosed : Closing ended _ _ _ := .both ctx conn r r' hr
        rwa [orError_eq hr'] at hclosed
      · rintro ex _ _ ⟨_, ⟨s, r, ⟨rfl, h⟩, rfl, hr⟩, rfl, hex⟩
        refine ⟨_, ended, s, _, h, ?_, List.append_assoc ..⟩
        have hclosed : Closing ended _ _ _ := .both ctx conn r (.error ex) hr
        rwa [orError_error hex] at hclosed

end

/-- The program in surroundings that answer by what went before: how it ends, and its calls. -/
def runMain (args : List String)
    (respond : List (Event jmsCalls) → (c : JmsCall) → Except Throwable c.Answer) :
    Except Throwable Unit × List (Event jmsCalls) :=
  match Body.runWith (traced (F := jmsCalls) respond) (sendToQueue args) ⟨none, none⟩ [] with
  | ((result, _), s) => (result, s)

/-- Whatever the calls answer and wherever they fail, the program makes its steps in order up to
the first that fails, then closes its context if it has one, and its connection if it has one
and the context was not closed with an error; it ends as its steps did, unless a close ends
with an error. -/
theorem sendToQueue_ends (args : List String)
    (respond : List (Event jmsCalls) → (c : JmsCall) → Except Throwable c.Answer) :
    Ended args (runMain args respond).1 (runMain args respond).2 := by
  have hbody : Does (fun b s => b = ⟨none, none⟩ ∧ s = []) (sendToQueue args)
      (fun _ _ => Ended args (.ok ())) fun ex _ => Ended args (.error ex) :=
    sendText_does.andFinally (fun _ => closeAll_does (.ok ())) fun ex =>
      closeAll_does (.error ex)
  have hout := (hbody.run_traced respond ⟨rfl, rfl⟩).2
  unfold runMain
  rcases hrun : Body.runWith (traced (F := jmsCalls) respond) (sendToQueue args) ⟨none, none⟩ []
    with ⟨⟨ex | u, b⟩, s⟩
  · rw [hrun] at hout
    exact hout
  · rw [hrun] at hout
    exact hout

end MySchedule.JBoss
