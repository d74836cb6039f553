import MySchedule.Java.Split
import MySchedule.Java.Throwable
import MySchedule.Launch.RunJava
import MySchedule.Machines.Failing

/-!
# The scripts of a web application

The listener runs scripts when the application comes up, and others when it goes down. They
run in the order in which the parameter names them, up to the first that fails. What the script
engine does is a machine over a state of its own.
-/

namespace MySchedule.Console

open Java Machines Shell Launch

/-- The fields of the listener, its script engine null or not. -/
structure GroovyContextListener where
  initScripts : Option (List Word)
  destroyScripts : Option (List Word)
  scriptEngine : Bool
  deriving DecidableEq, Repr

/-- A listener just constructed. -/
def GroovyContextListener.new : GroovyContextListener := ⟨none, none, false⟩

/-- The scripts that a parameter names; without a parameter a field stays as it is. -/
def scriptsOf (parameter : Option Word) (scripts : Option (List Word)) : Option (List Word) :=
  match parameter with
  | none => scripts
  | some text => if trim text = [] then scripts else some (split ',' text)

/-- The name of a script for the engine. -/
def scriptFile (filename : Word) : Word :=
  if lit "/" <+: filename then filename.tail else filename

/-- `catch (Exception e) { throw new RuntimeException(message, e); }`. -/
def wrapped (message : String) : Except Throwable Unit → Except Throwable Unit
  | .ok () => .ok ()
  | .error ex =>
    if ex.isError then .error ex
    else .error (.caused (.runtimeException "RuntimeException") (some message) ex)

namespace GroovyContextListener

variable {σ : Type} (scriptEngine : Machine σ Word (Except Throwable Unit))

def runScript (listener : GroovyContextListener) : Machine σ Word (Except Throwable Unit) where
  step s filename :=
    if listener.scriptEngine then scriptEngine.step s (scriptFile filename)
    else (.error Throwable.nullPointer, s)

/-- What is to come of one of the fields. -/
def runScripts (listener : GroovyContextListener) (scripts : Option (List Word)) (s : σ) :
    Except Throwable Unit × σ :=
  match scripts with
  | none => (.ok (), s)
  | some filenames => (listener.runScript scriptEngine).untilError s filenames

/-- The application comes up; `newScriptEngine` is what comes of creating the engine. -/
def contextInitialized (listener : GroovyContextListener) (initParameter : String → Option Word)
    (newScriptEngine : Except Throwable Unit) (s : σ) :
    Except Throwable Unit × GroovyContextListener × σ :=
  let listener := { listener with
    initScripts := scriptsOf (initParameter "initScripts") listener.initScripts
    destroyScripts := scriptsOf (initParameter "destroyScripts") listener.destroyScripts }
  match newScriptEngine with
  | .error ex => (wrapped "Failed to init webapp with scripts." (.error ex), listener, s)
  | .ok () =>
    let listener := { listener with scriptEngine := true }
    let ended := listener.runScripts scriptEngine listener.initScripts s
    (wrapped "Failed to init webapp with scripts." ended.1, listener, ended.2)

/-- The application goes down. -/
def contextDestroyed (listener : GroovyContextListener) (s : σ) : Except Throwable Unit × σ :=
  let ended := listener.runScripts scriptEngine listener.destroyScripts s
  (wrapped "Failed to destroy webapp with scripts." ended.1, ended.2)

end GroovyContextListener

@[simp] theorem wrapped_ok_iff {message : String} {result : Except Throwable Unit} :
    wrapped message result = .ok () ↔ result = .ok () := by
  cases result with
  | ok => simp [wrapped]
  | error ex =>
    rw [wrapped]
    split <;> simp

example : scriptsOf (some (lit "/WEB-INF/a.groovy,b.groovy,,")) none =
    some [lit "/WEB-INF/a.groovy", lit "b.groovy"] := by decide

end MySchedule.Console
